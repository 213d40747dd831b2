import RowGate.Proofs.Json.Integers
import RowGate.Proofs.Json.Written
import RowGate.Proofs.Record.Arrangement
import RowGate.Proofs.Settings.Override

/-! # The file and the environment agree

A setting may come from a member of the file or from a variable of the environment, which have
readers of their own. Both take the same integers and truth values, and an integer that is too large
is taken by neither, however long it is. A text is the same from both once its quotes and escapes
are read, as long as it is not blank, for a blank variable counts as not set.
-/
namespace RowGate
open Json

namespace Settings

/-- A number without a sign and without a leading zero, or a truth value, and its form. -/
inductive IsLiteral : String → Form → Prop where
  | natural {text : String} (h : IsInteger (Utf8.octets text)) :
      IsLiteral text (.number false (Utf8.octets text))
  | isTrue : IsLiteral "true" (.boolean true)
  | isFalse : IsLiteral "false" (.boolean false)

namespace Variable

def member : Variable → String
  | .logLevel => "log_level"
  | .redisUrl => "redis_url"
  | .operationTimeout => "operation_timeout_secs"
  | .connectTimeout => "connect_timeout_secs"
  | .keyCost => "session_key_cost"
  | .sendDetails => "send_details_on_internal_error"

def Gives : (v : Variable) → Form → v.Value → Prop
  | .logLevel, f, text | .redisUrl, f, text => Kind.text.Gives f text
  | .operationTimeout, f, n | .connectTimeout, f, n => (Kind.word 64).Gives f n
  | .keyCost, f, n => (Kind.word 32).Gives f n
  | .sendDetails, f, b => Kind.flag.Gives f b

theorem name_injective : Function.Injective name := by
  intro v w h
  cases v <;> cases w <;> first | rfl | exact absurd h (by decide)

theorem member_injective : Function.Injective member := by
  intro v w h
  cases v <;> cases w <;> first | rfl | exact absurd h (by decide)

end Variable

section Environment
variable {s s' : Settings} {v w : Variable} {raw raw' : String}

def only (v : Variable) (raw : String) : Lookup :=
  fun name => if name = v.name then some raw else none

theorem given_only_iff : Given (only v raw) w raw' ↔ w = v ∧ raw' = raw ∧ Text.trim raw ≠ "" := by
  rw [Given, only]
  by_cases hw : w = v
  · rw [hw, if_pos rfl, Option.some_inj]
    constructor
    · rintro ⟨rfl, hne⟩
      exact ⟨rfl, rfl, hne⟩
    · rintro ⟨-, rfl, hne⟩
      exact ⟨rfl, hne⟩
  · have hname : w.name ≠ v.name := fun h => hw (Variable.name_injective h)
    rw [if_neg hname]
    constructor
    · rintro ⟨hnone, -⟩
      cases hnone
    · rintro ⟨hsame, -⟩
      exact absurd hsame hw

theorem override_only_iff (hraw : Text.trim raw ≠ "") :
    s.override (only v raw) = (s', .ok ()) ↔ ∃ a, v.Reads raw a ∧ s' = s.put v a := by
  rw [override_eq_ok_iff_settled]
  constructor
  · intro h
    obtain ⟨hnone, -⟩ | ⟨raw', hgiven, hreads⟩ := h v
    · exact absurd (given_only_iff.mpr ⟨rfl, rfl, hraw⟩) (hnone raw)
    · obtain ⟨-, rfl, -⟩ := given_only_iff.mp hgiven
      refine ⟨s'.get v, hreads, ext_get fun w => ?_⟩
      by_cases hw : w = v
      · rw [hw, get_put]
      · rw [get_put_of_ne hw]
        obtain ⟨-, hsame⟩ | ⟨_, hgiven', -⟩ := h w
        · exact hsame
        · exact absurd (given_only_iff.mp hgiven').1 hw
  · rintro ⟨a, ha, rfl⟩ w
    by_cases hw : w = v
    · subst hw
      rw [get_put]
      exact .inr ⟨raw, given_only_iff.mpr ⟨rfl, rfl, hraw⟩, ha⟩
    · rw [get_put_of_ne hw]
      exact .inl ⟨fun _ hgiven => hw (given_only_iff.mp hgiven).1, rfl⟩

end Environment

def Encoded (s : Octets) : Prop := ∃ cs, s = Utf8.encode cs

section Encodings
variable {s t : Octets}

theorem Encoded.append (hs : Encoded s) (ht : Encoded t) : Encoded (s ++ t) := by
  obtain ⟨cs, rfl⟩ := hs
  obtain ⟨cs', rfl⟩ := ht
  exact ⟨cs ++ cs', (Utf8.encode_append cs cs').symm⟩

theorem Encoded.cons {b : UInt8} (hs : Encoded s) (hb : b < 0x80) : Encoded (b :: s) := by
  have hone : Encoded [b] := by
    refine ⟨[Char.ofNat b.toNat], ?_⟩
    rw [Utf8.encode_cons, Utf8.encodeChar_one hb]
    rfl
  exact hone.append hs

theorem encoded_of_ascii (h : ∀ b ∈ s, b < 0x80) : Encoded s := by
  induction s with
  | nil => exact ⟨[], rfl⟩
  | cons b s ih =>
    obtain ⟨hb, hs⟩ := List.forall_mem_cons.mp h
    exact .cons (ih hs) hb

theorem encoded_of_blank (hs : Blank s) : Encoded s := by
  refine encoded_of_ascii fun b hb => ?_
  have hspace := hs b hb
  simp only [isSpace, Bool.or_eq_true, decide_eq_true_eq] at hspace
  rcases hspace with ((rfl | rfl) | rfl) | rfl <;> decide

theorem lt_of_shortEscape {e x : UInt8} (h : shortEscape e = some x) : e < 0x80 := by
  unfold shortEscape at h
  split at h
  all_goals cases h
  all_goals
    next hletter =>
      rw [octet_of_letter hletter]
      decide

theorem lt_of_hexValue {b : UInt8} {n : Nat} (h : hexValue b = some n) : b < 0x80 := by
  simp only [hexValue, isDigit, Bool.and_eq_true, decide_eq_true_eq] at h
  rw [UInt8.lt_iff_toNat_lt]
  simp only [UInt8.le_iff_toNat_le] at h
  have hbound : (0x80 : UInt8).toNat = 128 := rfl
  split at h
  · next hb => exact Nat.lt_of_le_of_lt hb.2 (by decide)
  split at h
  · next hb => exact Nat.lt_of_le_of_lt hb.2 (by decide)
  split at h
  · next hb => exact Nat.lt_of_le_of_lt hb.2 (by decide)
  · cases h

theorem Encoded.hex {a b c d : UInt8} {n : Nat} (h : hex4 a b c d = some n) (hs : Encoded s) :
    Encoded (a :: b :: c :: d :: s) := by
  simp only [hex4, Option.bind_eq_bind, Option.bind_eq_some_iff] at h
  obtain ⟨_, ha, _, hb, _, hc, _, hd, -⟩ := h
  exact (((hs.cons (lt_of_hexValue hd)).cons (lt_of_hexValue hc)).cons (lt_of_hexValue hb)).cons
    (lt_of_hexValue ha)

/-- Escapes are of ASCII, and all other octets are those of characters. -/
theorem encoded_of_denotes {body : Octets} {cs : List Char} (h : Denotes body cs) :
    Encoded body := by
  have escaped : ∀ {s}, Encoded s → Encoded (0x5C :: 0x75 :: s) :=
    fun hs => (hs.cons (by decide)).cons (by decide)
  induction h with
  | nil => exact ⟨[], rfl⟩
  | @plain c _ _ _ _ _ _ ih => exact Encoded.append ⟨[c], (List.append_nil _).symm⟩ ih
  | short he _ ih => exact (ih.cons (lt_of_shortEscape he)).cons (by decide)
  | numbered hn _ _ _ ih => exact escaped (.hex hn ih)
  | pair hn _ hm _ _ ih => exact escaped (.hex hn (escaped (.hex hm ih)))

/-- A file of one member is a text when the value of this is one. -/
theorem encoded_of_document {x : String} {f : Form} {content : Octets}
    (h : Document [(x, f)] content) (hf : ∀ d, Spells f d → Encoded d) : Encoded content := by
  obtain ⟨raw, hobject, hnames⟩ := h
  obtain @⟨w, w', d, hw, hd, hw'⟩ := hobject
  cases hnames with
  | @cons m _ _ _ hm hrest =>
    cases hrest
    obtain ⟨k, form⟩ := m
    obtain ⟨hname, rfl⟩ := hm
    have hvalue : Encoded d := by
      cases hd with
      | object hms =>
        cases hms with
        | last hm hlast =>
          cases hm with
          | mk hw₁ _ hw₂ hw₃ hd =>
            have hbrace : Encoded [0x7D] := ⟨['\x7d'], rfl⟩
            have hclose := (encoded_of_blank hlast).append hbrace
            have hspelled := (encoded_of_blank hw₃).append (hf _ hd)
            have hbehind := (encoded_of_blank hw₂).append (hspelled.cons (b := 0x3A) (by decide))
            have hquoted := (encoded_of_denotes hname).append (hbehind.cons (b := 0x22) (by decide))
            have hmember := (encoded_of_blank hw₁).append (hquoted.cons (b := 0x22) (by decide))
            exact (hmember.append hclose).cons (by decide)
        | more _ _ hl => cases hl
    exact (encoded_of_blank hw).append (hvalue.append (encoded_of_blank hw'))

end Encodings

section File
variable {v : Variable} {f : Form} {content : Octets} {s : Settings}

theorem ofFile_of_encoded (h : Encoded content) :
    ofFile content = .ok s ↔ decode content = .ok s := by
  obtain ⟨cs, hcs⟩ := h
  have htext : Utf8.text content = .ok (String.ofList cs) := by
    rw [Utf8.text_eq_ok_iff, Utf8.octets, String.toList_ofList]
    exact hcs
  rw [ofFile, htext]
  cases hdecode : decode content with
  | error e => simp
  | ok s₀ => simp

/-- What entries of one name make of a setting: what the one of them gives, or the default. -/
def Held {α : Type} (default : α) (gives : Form → α → Prop) : List Entry → α → Prop
  | [], a => a = default
  | [e], a => gives e.2 a
  | _, _ => False

theorem holds_iff_held {x : String} {k : Kind} {default a : k.Carrier} {es : List Entry} :
    Holds ⟨x, k, some default⟩ es a ↔ Held default k.Gives es a := by
  match es with
  | [] => exact Option.some_inj.trans eq_comm
  | [_] => exact Iff.rfl
  | _ :: _ :: _ => exact Iff.rfl

/-- Each setting is what the entries of its own member make of it. -/
theorem describes_iff_held {l : List Entry} {row : Row schema.members} :
    Describes schema.members l row ↔
      ∀ v : Variable, Held (standard.get v) v.Gives (named v.member l) ((ofRow row).get v) := by
  obtain ⟨level, url, operation, connect, cost, details, ⟨⟩⟩ := row
  constructor
  · rintro ⟨hlevel, hurl, hoperation, hconnect, hcost, hdetails, -⟩ v
    cases v with
    | logLevel => exact holds_iff_held.mp hlevel
    | redisUrl => exact holds_iff_held.mp hurl
    | operationTimeout => exact holds_iff_held.mp hoperation
    | connectTimeout => exact holds_iff_held.mp hconnect
    | keyCost => exact holds_iff_held.mp hcost
    | sendDetails => exact holds_iff_held.mp hdetails
  · intro h
    exact ⟨holds_iff_held.mpr (h .logLevel), holds_iff_held.mpr (h .redisUrl),
      holds_iff_held.mpr (h .operationTimeout), holds_iff_held.mpr (h .connectTimeout),
      holds_iff_held.mpr (h .keyCost), holds_iff_held.mpr (h .sendDetails), trivial⟩

theorem describes_alone_iff {row : Row schema.members} :
    Describes schema.members [(v.member, f)] row ↔
      ∃ a, v.Gives f a ∧ ofRow row = standard.put v a := by
  have hown : named v.member [(v.member, f)] = [(v.member, f)] :=
    List.filter_cons_of_pos (decide_eq_true rfl)
  have hother : ∀ w ≠ v, named w.member [(v.member, f)] = [] := by
    intro w hw
    have hname : v.member ≠ w.member := fun h => hw (Variable.member_injective h.symm)
    exact List.filter_cons_of_neg (by simpa using hname)
  rw [describes_iff_held]
  constructor
  · intro h
    have hv := h v
    rw [hown] at hv
    refine ⟨_, hv, ext_get fun w => ?_⟩
    by_cases hw : w = v
    · rw [hw, get_put]
    · have hdefault := h w
      rw [hother w hw] at hdefault
      rw [get_put_of_ne hw]
      exact hdefault
  · rintro ⟨a, ha, hrow⟩ w
    rw [hrow]
    by_cases hw : w = v
    · subst hw
      rw [hown, get_put]
      exact ha
    · rw [hother w hw, get_put_of_ne hw]
      rfl

theorem decode_alone_iff (h : Document [(v.member, f)] content) :
    decode content = .ok s ↔ ∃ a, v.Gives f a ∧ s = standard.put v a := by
  rw [decode, map_eq_ok_iff]
  simp only [h.decode_eq_ok_iff Settings.sound.nodup, describes_alone_iff]
  constructor
  · rintro ⟨row, ⟨a, ha, hrow⟩, rfl⟩
    exact ⟨a, ha, hrow⟩
  · rintro ⟨a, ha, rfl⟩
    exact ⟨(standard.put v a).toRow, ⟨a, ha, rfl⟩, rfl⟩

end File

theorem toList_true : "true".toList = ['t', 'r', 'u', 'e'] := rfl

theorem toList_false : "false".toList = ['f', 'a', 'l', 's', 'e'] := rfl

section Literals
variable {v : Variable} {text : String} {f : Form}

theorem isNatural_iff {n : Nat} (hne : text.toList ≠ [])
    (hds : ∀ c ∈ text.toList, Digits.isDigit c = true) :
    IsNatural text n ↔ n = Digits.read 0 text.toList := by
  have htrimmed : Text.trimmed text.toList = text.toList :=
    Text.trimmed_of_not_blank fun c hc => Text.not_blank_of_isDigit (hds c hc)
  have hrange : ∀ c ∈ text.toList, '0' ≤ c ∧ c ≤ '9' := by
    simpa [Digits.isDigit] using hds
  rw [IsNatural, htrimmed]
  simp only [← Digits.read_eq_ofDigits]
  constructor
  · rintro ⟨ds, rfl | hsign, -, -, hn⟩
    · exact hn
    · have hplus := hds '+' (hsign ▸ List.mem_cons_self)
      exact absurd hplus (by decide)
  · exact fun hn => ⟨_, .inl rfl, hne, hrange, hn⟩

/-- Of an integer, both readers of words make the natural that it stands for. -/
theorem word_gives_iff {bits : Nat} (hbits : bits ≤ 64) (h : IsInteger (Utf8.octets text))
    {w : Word bits} :
    (Kind.word bits).Gives (.number false (Utf8.octets text)) w ↔ IsNatural text w.val := by
  obtain ⟨hne, hds, hread⟩ := h.text
  rw [isNatural_iff hne hds, hread]
  have hfits : w.val < wordBound 64 :=
    Nat.lt_of_lt_of_le w.isLt (Nat.pow_le_pow_right (by decide) hbits)
  constructor
  · rintro ⟨negative, d, n, hform, hscan, hfit⟩
    cases hform
    have hscan := hscan [] endsNumber_nil
    by_cases hlong : wordBound 64 ≤ digitsValue 0 (Utf8.octets text)
    · obtain ⟨x, rfl⟩ := h.double_of_numeral hlong hscan
      cases hfit
    · rw [h.numeral endsNumber_nil (Nat.lt_of_not_le hlong)] at hscan
      cases hscan
      rw [Record.fitWord] at hfit
      split at hfit
      · cases hfit
        rfl
      · cases hfit
  · intro hw
    refine ⟨false, _, .natural w.val, rfl, fun rest hrest => ?_, ?_⟩
    · rw [hw] at hfits ⊢
      exact h.numeral hrest hfits
    · rw [Record.fitWord, dif_pos w.isLt]

theorem not_isNatural_of_letter {n : Nat} {d : Char} {ds : List Char}
    (hblank : ∀ c ∈ text.toList, Text.isBlank c = false) (htext : text.toList = d :: ds)
    (hd : Digits.isDigit d = false) (hplus : d ≠ '+') : ¬ IsNatural text n := by
  rintro ⟨ds', hds, hne, hrange, -⟩
  rw [Text.trimmed_of_not_blank hblank, htext] at hds
  obtain rfl | hds := hds
  · obtain ⟨hlow, hhigh⟩ := hrange d List.mem_cons_self
    rw [Digits.isDigit, Bool.and_eq_false_iff, decide_eq_false_iff_not,
      decide_eq_false_iff_not] at hd
    exact hd.elim (fun h => h hlow) fun h => h hhigh
  · exact hplus (List.cons.inj hds).1

theorem trim_of_not_blank (h : ∀ c ∈ text.toList, Text.isBlank c = false) :
    Text.trim text = text := by
  rw [Text.trim, Text.trimmed_of_not_blank h, String.ofList_toList]

theorem IsLiteral.not_blank (h : IsLiteral text f) : ∀ c ∈ text.toList, Text.isBlank c = false := by
  cases h with
  | natural h => exact fun c hc => Text.not_blank_of_isDigit (h.text.2.1 c hc)
  | isTrue =>
    simp only [toList_true, List.forall_mem_cons, List.not_mem_nil, false_implies, implies_true]
    decide
  | isFalse =>
    simp only [toList_false, List.forall_mem_cons, List.not_mem_nil, false_implies, implies_true]
    decide

theorem IsLiteral.trim_ne_empty (h : IsLiteral text f) : Text.trim text ≠ "" := by
  rw [trim_of_not_blank h.not_blank]
  cases h with
  | natural h => exact fun hempty => h.text.1 (String.toList_eq_nil_iff.mpr hempty)
  | isTrue => decide
  | isFalse => decide

/-- A literal is taken from the file as it is taken from the environment, by numbers and flags
alike. -/
theorem IsLiteral.gives_iff_reads (h : IsLiteral text f) (hlevel : v ≠ .logLevel)
    (hurl : v ≠ .redisUrl) {a : v.Value} : v.Gives f a ↔ v.Reads text a := by
  have word : ∀ {bits : Nat} {w : Word bits}, bits ≤ 64 →
      ((Kind.word bits).Gives f w ↔ IsNatural text w.val) := by
    intro bits w hbits
    have hblank := h.not_blank
    cases h with
    | natural h => exact word_gives_iff hbits h
    | isTrue =>
      refine iff_of_false ?_ (not_isNatural_of_letter hblank toList_true (by decide) (by decide))
      rintro ⟨_, _, _, hform, -⟩
      cases hform
    | isFalse =>
      refine iff_of_false ?_ (not_isNatural_of_letter hblank toList_false (by decide) (by decide))
      rintro ⟨_, _, _, hform, -⟩
      cases hform
  cases v with
  | logLevel => exact absurd rfl hlevel
  | redisUrl => exact absurd rfl hurl
  | operationTimeout | connectTimeout => exact word (by decide)
  | keyCost => exact word (by decide)
  | sendDetails =>
    change f = .boolean a ↔ Text.trim text = if a then "true" else "false"
    rw [trim_of_not_blank h.not_blank]
    cases h with
    | natural h =>
      refine iff_of_false nofun fun htext => ?_
      have hdigit := h.text.2.1
      cases a with
      | true =>
        rw [htext, if_pos rfl, toList_true] at hdigit
        exact absurd (hdigit 't' List.mem_cons_self) (by decide)
      | false =>
        rw [htext, if_neg Bool.false_ne_true, toList_false] at hdigit
        exact absurd (hdigit 'f' List.mem_cons_self) (by decide)
    | isTrue => cases a <;> simp
    | isFalse => cases a <;> simp

end Literals

section Sources
variable {v : Variable} {text : String} {f : Form}

theorem IsLiteral.spells (h : IsLiteral text f) : Spells f (Utf8.octets text) := by
  cases h with
  | natural h =>
    have hnumeral := IsNumeral.mk h (.mk .none .none)
    rw [List.append_nil, List.append_nil] at hnumeral
    exact .natural hnumeral
  | isTrue => exact .isTrue
  | isFalse => exact .isFalse

/-- A literal stands for its form in one way. -/
theorem IsLiteral.encoded (h : IsLiteral text f) : ∀ d, Spells f d → Encoded d := by
  intro d hd
  cases h with
  | natural h =>
    cases hd
    exact ⟨text.toList, rfl⟩
  | isTrue =>
    cases hd
    exact ⟨"true".toList, rfl⟩
  | isFalse =>
    cases hd
    exact ⟨"false".toList, rfl⟩

theorem encoded_of_string {body : Octets} {cs : List Char} (h : Denotes body cs) :
    ∀ d, Spells (.string body) d → Encoded d := by
  intro d hd
  cases hd
  have hquote : Encoded [0x22] := ⟨['"'], rfl⟩
  exact ((encoded_of_denotes h).append hquote).cons (by decide)

theorem Variable.gives_text {body : Octets} (hv : v = .logLevel ∨ v = .redisUrl)
    (h : Denotes body text.toList) : ∃ a, v.Gives (.string body) a ∧ v.Reads text a := by
  have htext : GivesText (.string body) text := ⟨body, rfl, h.stringText⟩
  obtain rfl | rfl := hv
  · exact ⟨text, htext, rfl⟩
  · exact ⟨text, htext, rfl⟩

def oneMember (v : Variable) (value : List Char) : Octets :=
  Utf8.encode ('\x7b' :: (stringChars v.member ++ ':' :: (value ++ ['\x7d'])))

theorem document_oneMember {value : List Char} (h : Spells f (Utf8.encode value)) :
    Document [(v.member, f)] (oneMember v value) := by
  have hname := denotes_escaped v.member.toList
  have hmember := SpellsMember.mk blank_nil hname.bodyText?.1 blank_nil blank_nil h
  have hobject := IsObject.mk blank_nil (.object (.last hmember blank_nil)) blank_nil
  refine ⟨[(_, f)], ?_, .cons ⟨hname, rfl⟩ .nil⟩
  rw [oneMember, Utf8.encode_cons, Utf8.encode_append, encode_stringChars, Utf8.encode_cons,
    Utf8.encode_append]
  simp only [List.nil_append, List.append_nil, List.cons_append, List.append_assoc] at hobject ⊢
  exact hobject

end Sources

/-- A literal that is neither a level nor an address is taken from a file of one member exactly
where it is taken from its variable, and both give the same settings. So do texts that are not
blank, for the level and for the address, however they are escaped in the file. -/
theorem file_and_environment_agree (v : Variable) (text : String) :
    (v ≠ .logLevel → v ≠ .redisUrl → ∀ f, IsLiteral text f →
      Document [(v.member, f)] (oneMember v text.toList) ∧
      ∀ content, Document [(v.member, f)] content → ∀ s,
        ofFile content = .ok s ↔ standard.override (only v text) = (s, .ok ())) ∧
    (v = .logLevel ∨ v = .redisUrl → Text.trim text ≠ "" →
      (∃ body, Denotes body text.toList ∧
        Document [(v.member, .string body)] (oneMember v (stringChars text))) ∧
      ∀ body content, Denotes body text.toList → Document [(v.member, .string body)] content →
        ∃ s, ofFile content = .ok s ∧ standard.override (only v text) = (s, .ok ()) ∧
          v.Reads text (s.get v) ∧ ∀ w ≠ v, s.get w = standard.get w) := by
  constructor
  · intro hlevel hurl f hf
    refine ⟨document_oneMember hf.spells, fun content hcontent s => ?_⟩
    rw [ofFile_of_encoded (encoded_of_document hcontent hf.encoded), decode_alone_iff hcontent,
      override_only_iff hf.trim_ne_empty]
    simp only [hf.gives_iff_reads hlevel hurl]
  · intro hv htext
    constructor
    · have hbody := denotes_escaped text.toList
      have hspells := Spells.string hbody.bodyText?.1
      rw [← encode_stringChars] at hspells
      exact ⟨_, hbody, document_oneMember hspells⟩
    · intro body content hbody hcontent
      obtain ⟨a, hgives, hreads⟩ := v.gives_text hv hbody
      refine ⟨standard.put v a, ?_, ?_, ?_, fun w hw => get_put_of_ne hw a⟩
      · rw [ofFile_of_encoded (encoded_of_document hcontent (encoded_of_string hbody))]
        exact (decode_alone_iff hcontent).mpr ⟨a, hgives, rfl⟩
      · exact (override_only_iff htext).mpr ⟨a, hreads, rfl⟩
      · rw [get_put]
        exact hreads

theorem isInteger_of_all {b : UInt8} {ds : Octets} (hb : isDigit b = true) (hz : b ≠ 0x30)
    (hds : ds.all isDigit = true) : IsInteger (b :: ds) :=
  .digits hb hz fun d hd => List.all_eq_true.mp hds d hd

def escapedLevel : Octets := Utf8.octets "\\u0061\\\"\\n"

theorem denotes_escapedLevel : Denotes escapedLevel "a\"\n".toList :=
  .numbered (n := 0x61) rfl rfl rfl (.short (x := 0x22) rfl (.short (x := 0x0A) rfl .nil))

theorem file_and_environment_agree_sample :
    IsLiteral "12" (.number false (Utf8.octets "12")) ∧
    ofFile (oneMember .keyCost "12".toList) = .ok { standard with keyCost := ⟨12, by decide⟩ } ∧
    IsLiteral "18446744073709551616" (.number false (Utf8.octets "18446744073709551616")) ∧
    (∀ s, ofFile (oneMember .connectTimeout "18446744073709551616".toList) ≠ .ok s) ∧
    Document [(Variable.logLevel.member, .string escapedLevel)]
      (oneMember .logLevel ('"' :: ("\\u0061\\\"\\n".toList ++ ['"']))) ∧
    ∃ s, ofFile (oneMember .logLevel ('"' :: ("\\u0061\\\"\\n".toList ++ ['"']))) = .ok s ∧
      s.logLevel = "a\"\n" := by
  have hcost : IsLiteral "12" (.number false (Utf8.octets "12")) :=
    .natural (isInteger_of_all rfl (by decide) rfl)
  have hlong : IsLiteral "18446744073709551616"
      (.number false (Utf8.octets "18446744073709551616")) :=
    .natural (isInteger_of_all rfl (by decide) rfl)
  have htaken : standard.override (only .keyCost "12") =
      ({ standard with keyCost := ⟨12, by decide⟩ }, .ok ()) := by decide +kernel
  have hrefused : standard.override (only .connectTimeout "18446744073709551616") =
      (standard, .error (.unreadable .connectTimeout "18446744073709551616")) := by decide +kernel
  have hlevel : Document [(Variable.logLevel.member, .string escapedLevel)]
      (oneMember .logLevel ('"' :: ("\\u0061\\\"\\n".toList ++ ['"']))) :=
    document_oneMember (.string denotes_escapedLevel.bodyText?.1)
  obtain ⟨hcostFile, hcostAgree⟩ :=
    (file_and_environment_agree .keyCost "12").1 (by decide) (by decide) _ hcost
  obtain ⟨hlongFile, hlongAgree⟩ :=
    (file_and_environment_agree .connectTimeout "18446744073709551616").1 (by decide) (by decide)
      _ hlong
  obtain ⟨-, htext⟩ :=
    (file_and_environment_agree .logLevel "a\"\n").2 (.inl rfl) (by decide +kernel)
  obtain ⟨s, hs, -, hread, -⟩ := htext _ _ denotes_escapedLevel hlevel
  refine ⟨hcost, (hcostAgree _ hcostFile _).mpr htaken, hlong, fun s hs => ?_, hlevel, s, hs, hread⟩
  have hsame := (hlongAgree _ hlongFile s).mp hs
  rw [hrefused] at hsame
  cases hsame

end Settings
end RowGate
