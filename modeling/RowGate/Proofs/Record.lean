import RowGate.Record
import RowGate.Login
import RowGate.Proofs.Json

/-! # Records survive their documents

The document of a row is read back as that row, for every list of members with distinct names and
kinds that can be told apart. Each value is read back with what follows it left over, and each
member fills its own slot and no other, so a document of some members fills just their slots; when
all are filled the row is complete.
-/
namespace RowGate
open Json

namespace Kind

def isOptional : Kind → Bool
  | optional _ => true
  | _ => false

/-- Kinds whose values can be told from their documents: words of at most 64 bits, and options
that are not nested, since `null` stands for one absence only. -/
def Readable : Kind → Prop
  | word bits => bits ≤ 64
  | optional k => k.isOptional = false ∧ k.Readable
  | _ => True

end Kind

namespace Record
variable {rest : Octets}

theorem readText_written (s : String) (rest : Octets) :
    readText (Utf8.encode (stringChars s) ++ rest) = .ok (s, rest) := by
  exact stringText_escaped s rest

theorem readFlag_written (b : Bool) (rest : Octets) :
    readFlag (Utf8.encode (boolChars b) ++ rest) = .ok (b, rest) := by
  cases b with
  | false => rfl
  | true => rfl

theorem exists_digit_cons (n : Nat) (rest : Octets) : ∃ d < 10, ∃ more,
    Utf8.encode (Digits.write n) ++ rest = UInt8.ofNat (0x30 + d) :: more := by
  induction n using Nat.strongRecOn generalizing rest with
  | _ n ih =>
    rw [Digits.write]
    split
    · next h => exact ⟨n, h, rest, by rw [encode_digit h, List.singleton_append]⟩
    · next h =>
      rw [Utf8.encode_append, List.append_assoc]
      exact ih (n / 10) (by omega) _

theorem readWord_written {bits : Nat} (hb : bits ≤ 64) (expected : String) (n : Word bits)
    (h : EndsNumber rest) :
    readWord bits expected (Utf8.encode (Digits.write n.val) ++ rest) = .ok (n, rest) := by
  have table : ∀ d < 10, isSpace (UInt8.ofNat (0x30 + d)) = false ∧
      letter (UInt8.ofNat (0x30 + d)) ≠ '-' ∧ isDigit (UInt8.ofNat (0x30 + d)) = true := by decide
  have hfits : n.val < wordBound 64 :=
    Nat.lt_of_lt_of_le n.isLt (Nat.pow_le_pow_right (by decide) hb)
  obtain ⟨d, hd, more, hmore⟩ := exists_digit_cons n.val rest
  obtain ⟨hspace, hminus, hdigit⟩ := table d hd
  have hskip : skipBlank (UInt8.ofNat (0x30 + d) :: more) = UInt8.ofNat (0x30 + d) :: more :=
    List.dropWhile_cons_of_neg (by rw [hspace]; exact Bool.false_ne_true)
  have hread := numeral_write hfits h
  rw [hmore] at hread ⊢
  rw [readWord, hskip]
  dsimp only
  rw [if_neg hminus, if_pos hdigit, hread]
  simp only [bind, Except.bind, fitWord, dif_pos n.isLt]

def commaPreceded (pieces : List (List Char)) : List Char := pieces.flatMap (',' :: ·)

theorem commaSeparated_cons (x : List Char) (pieces : List (List Char)) :
    commaSeparated (x :: pieces) = x ++ commaPreceded pieces := by
  induction pieces generalizing x with
  | nil => rw [commaSeparated, commaPreceded, List.flatMap_nil, List.append_nil]
  | cons y pieces ih =>
    rw [commaSeparated, ih y]
    rfl

theorem length_le_commaPreceded (pieces : List (List Char)) :
    pieces.length ≤ (commaPreceded pieces).length := by
  induction pieces with
  | nil => exact Nat.le_refl _
  | cons x pieces ih =>
    change _ ≤ (',' :: (x ++ commaPreceded pieces)).length
    rw [List.length_cons, List.length_cons, List.length_append]
    omega

theorem encode_commaPreceded_cons (x : List Char) (pieces : List (List Char)) (rest : Octets) :
    Utf8.encode (commaPreceded (x :: pieces)) ++ rest =
      0x2C :: (Utf8.encode x ++ (Utf8.encode (commaPreceded pieces) ++ rest)) := by
  change Utf8.encode (',' :: (x ++ commaPreceded pieces)) ++ rest = _
  rw [Utf8.encode_cons, Utf8.encode_append, List.append_assoc, List.append_assoc]
  rfl

theorem readItems_written (ts : List String) {fuel : Nat} (hf : ts.length < fuel) (rest : Octets) :
    readItems fuel false (Utf8.encode (commaPreceded (ts.map stringChars)) ++ 0x5D :: rest) =
      .ok (ts, 0x5D :: rest) := by
  induction ts generalizing fuel with
  | nil =>
    obtain ⟨fuel, rfl⟩ : ∃ n, fuel = n + 1 := ⟨fuel - 1, by omega⟩
    rfl
  | cons t ts ih =>
    obtain ⟨fuel, rfl⟩ : ∃ n, fuel = n + 1 := ⟨fuel - 1, by omega⟩
    rw [List.map_cons, encode_commaPreceded_cons, readItems]
    have hnext : nextItem false (0x2C :: (Utf8.encode (stringChars t) ++
        (Utf8.encode (commaPreceded (ts.map stringChars)) ++ 0x5D :: rest))) =
          .ok (some (Utf8.encode (stringChars t) ++
            (Utf8.encode (commaPreceded (ts.map stringChars)) ++ 0x5D :: rest))) := rfl
    have hf' : ts.length < fuel := by
      rw [List.length_cons] at hf
      omega
    rw [hnext]
    simp only [bind, Except.bind, readText_written, ih hf']

theorem itemChars_eq (l : List Json) : itemChars l = l.map chars := by
  induction l with
  | nil => rw [itemChars, List.map_nil]
  | cons v l ih => rw [itemChars, ih, List.map_cons]

theorem itemChars_map_string (ts : List String) :
    itemChars (ts.map .string) = ts.map stringChars := by
  rw [itemChars_eq, List.map_map]
  exact List.map_congr_left fun t _ => by rw [Function.comp, chars]

theorem readTexts_written (ts : List String) (rest : Octets) :
    readTexts (Utf8.encode (chars (.array (ts.map .string))) ++ rest) = .ok (ts, rest) := by
  rw [chars, itemChars_map_string]
  cases ts with
  | nil => rfl
  | cons t ts =>
    have hlen := length_le_commaPreceded (ts.map stringChars)
    rw [List.map_cons, commaSeparated_cons, Utf8.encode_cons, Utf8.encode_append,
      Utf8.encode_append, List.append_assoc, List.append_assoc, List.append_assoc]
    generalize hbody : Utf8.encode (stringChars t) ++
      (Utf8.encode (commaPreceded (ts.map stringChars)) ++ (Utf8.encode [']'] ++ rest)) = body
    have hitems : readItems (body.length + 1) true body = .ok (t :: ts, 0x5D :: rest) := by
      have hnext : nextItem true body = .ok (some body) := by
        rw [← hbody]
        rfl
      have hfuel : ts.length < body.length := by
        have hsome := Utf8.length_le_length_encode (commaPreceded (ts.map stringChars))
        have hquote : 0 < (Utf8.encode (stringChars t)).length :=
          Nat.lt_of_lt_of_le (Nat.zero_lt_succ _) (Utf8.length_le_length_encode (stringChars t))
        rw [List.length_map] at hlen
        rw [← hbody, List.length_append, List.length_append]
        omega
      rw [readItems, hnext, ← hbody]
      simp only [bind, Except.bind, readText_written]
      rw [hbody]
      simp only [show Utf8.encode [']'] ++ rest = 0x5D :: rest from rfl,
        readItems_written ts hfuel rest]
    change (readItems (body.length + 1) true body >>= fun read =>
      closeArray read.2 >>= fun rest => .ok (read.1, rest)) = _
    rw [hitems]
    rfl

/-- A value begins with an octet that is neither blank nor a closing bracket, and that begins `null`
only if the value is an option. -/
theorem exists_first (k : Kind) (v : k.Carrier) (rest : Octets) :
    ∃ b more, Utf8.encode (chars (k.json v)) ++ rest = b :: more ∧ isSpace b = false ∧
      letter b ≠ ']' ∧ (k.isOptional = false → letter b ≠ 'n') := by
  induction k with
  | text => exact ⟨0x22, _, rfl, by decide, by decide, fun _ => by decide⟩
  | flag =>
    cases v with
    | false => exact ⟨0x66, _, rfl, by decide, by decide, fun _ => by decide⟩
    | true => exact ⟨0x74, _, rfl, by decide, by decide, fun _ => by decide⟩
  | word bits =>
    have table : ∀ d < 10, isSpace (UInt8.ofNat (0x30 + d)) = false ∧
        letter (UInt8.ofNat (0x30 + d)) ≠ ']' ∧ letter (UInt8.ofNat (0x30 + d)) ≠ 'n' := by decide
    obtain ⟨d, hd, more, hmore⟩ := exists_digit_cons v.val rest
    obtain ⟨hspace, hclose, hn⟩ := table d hd
    rw [Kind.json, chars]
    exact ⟨_, more, hmore, hspace, hclose, fun _ => hn⟩
  | texts => exact ⟨0x5B, _, rfl, by decide, by decide, fun _ => by decide⟩
  | optional k ih =>
    cases v with
    | none => exact ⟨0x6E, _, rfl, by decide, by decide, fun hk => by cases hk⟩
    | some v =>
      obtain ⟨b, more, hfirst, hspace, hclose, -⟩ := ih v
      exact ⟨b, more, hfirst, hspace, hclose, fun hk => by cases hk⟩

/-- The value of a member is read back from its document, and what follows is left. -/
theorem readValue_written (k : Kind) (hk : k.Readable) (v : k.Carrier) (h : EndsNumber rest) :
    readValue k (Utf8.encode (chars (k.json v)) ++ rest) = .ok (v, rest) := by
  induction k with
  | text => exact readText_written v rest
  | flag =>
    have hread := readFlag_written v rest
    rw [Kind.json, chars]
    exact hread
  | word bits =>
    have hread := readWord_written hk (Kind.word bits).expected v h
    rw [Kind.json, chars]
    exact hread
  | texts => exact readTexts_written v rest
  | optional k ih =>
    cases v with
    | none => rfl
    | some v =>
      obtain ⟨b, more, hfirst, hspace, -, hn⟩ := exists_first k v rest
      have hskip : skipBlank (b :: more) = b :: more :=
        List.dropWhile_cons_of_neg (by rw [hspace]; exact Bool.false_ne_true)
      have hread := ih hk.2 v
      rw [hfirst] at hread
      change readValue (.optional k) (Utf8.encode (chars (k.json v)) ++ rest) = _
      rw [hfirst, readValue, hskip]
      dsimp only
      rw [if_neg (hn hk.1), hread]
      rfl

end Record

namespace Slots

def ofRow : (ms : List Member) → Row ms → Slots ms
  | [], _ => ()
  | _ :: ms, (v, row) => (some v, ofRow ms row)

theorem finish_ofRow (ms : List Member) (row : Row ms) : finish ms (ofRow ms row) = .ok row := by
  induction ms with
  | nil => rfl
  | cons m ms ih =>
    obtain ⟨v, row⟩ := row
    change (finish ms (ofRow ms row) >>= fun rest => .ok (v, rest)) = _
    rw [ih row]
    rfl

def entries : (ms : List Member) → Slots ms → List (String × Json)
  | [], _ => []
  | _ :: ms, (none, slots) => entries ms slots
  | m :: ms, (some v, slots) => (m.name, m.kind.json v) :: entries ms slots

theorem entries_ofRow (ms : List Member) (row : Row ms) :
    entries ms (ofRow ms row) = Schema.memberValues ms row := by
  induction ms with
  | nil => rfl
  | cons m ms ih => exact congrArg (_ :: ·) (ih row.2)

theorem name_of_mem_entries {ms : List Member} {slots : Slots ms} {e : String × Json}
    (h : e ∈ entries ms slots) : e.1 ∈ ms.map Member.name := by
  induction ms with
  | nil => cases h
  | cons m ms ih =>
    obtain ⟨slot, slots⟩ := slots
    cases slot with
    | none => exact List.mem_cons_of_mem _ (ih h)
    | some v =>
      cases h with
      | head => exact List.mem_cons_self
      | tail _ h => exact List.mem_cons_of_mem _ (ih h)

inductive Filled {ms : List Member} : Slots ms → List (String × Json) → Slots ms → Prop where
  | nil (slots : Slots ms) : Filled slots [] slots
  | cons {slots slots' slots'' : Slots ms} {e : String × Json} {l : List (String × Json)}
      (h : ∀ rest, EndsNumber rest →
        fill ms slots e.1 (0x3A :: (Utf8.encode (chars e.2) ++ rest)) = .ok (some (slots', rest)))
      (hl : Filled slots' l slots'') : Filled slots (e :: l) slots''

/-- Entries for other members leave the slot of a member alone. -/
theorem Filled.behind {ms : List Member} {slots slots' : Slots ms} {l : List (String × Json)}
    (h : Filled slots l slots') {m : Member} (slot : Option m.kind.Carrier)
    (hm : ∀ e ∈ l, m.name ≠ e.1) : @Filled (m :: ms) (slot, slots) l (slot, slots') := by
  induction h with
  | nil slots => exact .nil _
  | cons h _ ih =>
    refine .cons ?_ (ih fun e he => hm e (List.mem_cons_of_mem _ he))
    intro rest hrest
    rw [fill.eq_def]
    simp only [if_neg (hm _ List.mem_cons_self), h rest hrest]
    rfl

/-- The entries of slots fill them, each member its own. -/
theorem filled_entries (ms : List Member) (slots : Slots ms) (hms : ∀ m ∈ ms, m.kind.Readable)
    (hn : (ms.map Member.name).Nodup) : Filled (empty ms) (entries ms slots) slots := by
  induction ms with
  | nil => exact Filled.nil (empty [])
  | cons m ms ih =>
    obtain ⟨slot, slots⟩ := slots
    rw [List.map_cons, List.nodup_cons] at hn
    have hrest := ih slots (fun x hx => hms x (List.mem_cons_of_mem _ hx)) hn.2
    have hm : ∀ e ∈ entries ms slots, m.name ≠ e.1 :=
      fun e he hname => hn.1 (hname ▸ name_of_mem_entries he)
    cases slot with
    | none => exact hrest.behind none hm
    | some v =>
      refine .cons ?_ (hrest.behind (some v) hm)
      intro rest hends
      have hread := Record.readValue_written m.kind (hms m List.mem_cons_self) v hends
      rw [empty, fill, if_pos rfl]
      change (Record.readValue m.kind (Utf8.encode (chars (m.kind.json v)) ++ rest) >>=
        fun read => .ok (some ((some read.1, empty ms), read.2))) = _
      rw [hread]
      rfl

end Slots

namespace Schema

/-- A schema whose documents are read back: distinct names, and kinds that are told apart. -/
structure Sound (c : Schema) : Prop where
  nodup : (c.members.map Member.name).Nodup
  readable : ∀ m ∈ c.members, m.kind.Readable

def memberText (m : String × Json) : List Char := stringChars m.1 ++ ':' :: chars m.2

theorem memberChars_eq (l : List (String × Json)) : memberChars l = l.map memberText := by
  induction l with
  | nil => rw [memberChars, List.map_nil]
  | cons m l ih =>
    obtain ⟨k, v⟩ := m
    rw [memberChars, ih]
    rfl

theorem endsNumber_comma (rest : Octets) : EndsNumber (0x2C :: rest) := by
  intro b hb
  cases hb
  decide

theorem endsNumber_brace (rest : Octets) : EndsNumber (0x7D :: rest) := by
  intro b hb
  cases hb
  decide

def behind (l : List (String × Json)) (rest : Octets) : Octets :=
  Utf8.encode (Record.commaPreceded (l.map memberText)) ++ 0x7D :: rest

theorem endsNumber_behind (l : List (String × Json)) (rest : Octets) :
    EndsNumber (behind l rest) := by
  cases l with
  | nil => exact endsNumber_brace rest
  | cons m l =>
    rw [behind, List.map_cons, Record.encode_commaPreceded_cons]
    exact endsNumber_comma _

theorem memberText_append (m : String × Json) (rest : Octets) :
    Utf8.encode (memberText m) ++ rest =
      0x22 :: (Utf8.encode (m.1.toList.flatMap escapeChar ++ ['"']) ++
        (0x3A :: (Utf8.encode (chars m.2) ++ rest))) := by
  rw [memberText, stringChars, List.cons_append, Utf8.encode_cons, Utf8.encode_append,
    Utf8.encode_cons ':']
  simp only [List.append_assoc]
  rfl

section Members
variable {ms : List Member} {slots slots' : Slots ms} (rest : Octets)

/-- One member is read into its slot, as the first one or behind a comma. -/
theorem readMembers_member {e : String × Json} {l : List (String × Json)}
    (hfill : slots.fill ms e.1 (0x3A :: (Utf8.encode (chars e.2) ++ behind l rest)) =
      .ok (some (slots', behind l rest))) (fuel : Nat) :
    readMembers ms (fuel + 1) true slots (Utf8.encode (memberText e) ++ behind l rest) =
      readMembers ms fuel false slots' (behind l rest) ∧
    readMembers ms (fuel + 1) false slots (0x2C :: (Utf8.encode (memberText e) ++ behind l rest)) =
      readMembers ms fuel false slots' (behind l rest) := by
  have htext := stringText_escaped e.1 (0x3A :: (Utf8.encode (chars e.2) ++ behind l rest))
  rw [memberText_append]
  generalize Utf8.encode (e.1.toList.flatMap escapeChar ++ ['"']) ++
    (0x3A :: (Utf8.encode (chars e.2) ++ behind l rest)) = body at htext
  have hskip : ∀ s, skipBlank (0x22 :: s) = 0x22 :: s := fun _ => rfl
  have hcomma : ∀ s, skipBlank (0x2C :: s) = 0x2C :: s := fun _ => rfl
  constructor
  · rw [readMembers, hskip]
    simp only [htext, hfill, bind, Except.bind, show letter 0x22 = '"' by decide, Char.reduceEq,
      ↓reduceIte]
  · rw [readMembers, hcomma]
    simp only [hskip, htext, hfill, bind, Except.bind, show letter 0x2C = ',' by decide,
      show letter 0x22 = '"' by decide, Char.reduceEq, Bool.false_eq_true, ↓reduceIte]

/-- Members that stand behind others are read into their slots. -/
theorem readMembers_behind {l : List (String × Json)} (h : Slots.Filled slots l slots')
    {fuel : Nat} (hf : l.length < fuel) :
    readMembers ms fuel false slots (behind l rest) = .ok (slots', rest) := by
  induction h generalizing fuel with
  | nil slots =>
    obtain ⟨fuel, rfl⟩ : ∃ n, fuel = n + 1 := ⟨fuel - 1, by omega⟩
    rfl
  | @cons slots₀ slots₁ slots₂ e l h _ ih =>
    obtain ⟨fuel, rfl⟩ : ∃ n, fuel = n + 1 := ⟨fuel - 1, by omega⟩
    have hlist : behind (e :: l) rest =
        0x2C :: (Utf8.encode (memberText e) ++ behind l rest) := by
      rw [behind, List.map_cons, Record.encode_commaPreceded_cons]
      rfl
    rw [hlist, (readMembers_member rest (h _ (endsNumber_behind l rest)) fuel).2,
      ih (by rw [List.length_cons] at hf; omega)]

end Members

/-- The members of an object are read from its opening brace on. -/
theorem readMembers_written {ms : List Member} {slots slots' : Slots ms}
    {l : List (String × Json)} (h : Slots.Filled slots l slots') :
    let body := Utf8.encode (commaSeparated (l.map memberText) ++ ['\x7d'])
    readMembers ms (body.length + 1) true slots body = .ok (slots', []) := by
  intro body
  cases h with
  | nil slots =>
    have hbody : body = [0x7D] := rfl
    rw [hbody]
    rfl
  | @cons slots₀ slots₁ slots₂ e l h hl =>
    have hbody : body = Utf8.encode (memberText e) ++ behind l [] := by
      simp only [body, List.map_cons, Record.commaSeparated_cons, Utf8.encode_append,
        List.append_assoc]
      rfl
    have hfuel : l.length < body.length := by
      have hpieces := Record.length_le_commaPreceded (l.map memberText)
      have hoctets := Utf8.length_le_length_encode (Record.commaPreceded (l.map memberText))
      rw [List.length_map] at hpieces
      rw [hbody, behind, List.length_append, List.length_append, List.length_cons]
      omega
    rw [hbody, (readMembers_member [] (h _ (endsNumber_behind l [])) _).1, ← hbody,
      readMembers_behind [] hl hfuel]

/-- Decoding the document of a row gives the row. -/
theorem decode_encode (c : Schema) (hc : c.Sound) (row : Row c.members) :
    c.decode (Utf8.octets (c.encode row)) = .ok row := by
  have hfilled := Slots.filled_entries c.members (Slots.ofRow c.members row) hc.readable hc.nodup
  have hmembers := readMembers_written hfilled
  rw [Slots.entries_ofRow] at hmembers
  have hread : c.read (Utf8.octets (c.encode row)) = .ok (row, []) := by
    rw [encode, compact, Utf8.octets, String.toList_ofList, json, chars, memberChars_eq,
      Utf8.encode_cons]
    generalize Utf8.encode (commaSeparated ((memberValues c.members row).map memberText) ++
      ['\x7d']) = body at hmembers
    change (readMembers c.members (body.length + 1) true (Slots.empty c.members) body >>=
      fun read => read.1.finish c.members >>= fun row => .ok (row, read.2)) = _
    rw [hmembers]
    change ((Slots.ofRow c.members row).finish c.members >>= _) = _
    rw [Slots.finish_ofRow]
    rfl
  rw [decode, hread]
  rfl

end Schema

theorem Login.sound : Login.schema.Sound := by
  constructor
  · decide
  · simp [Login.schema, Kind.Readable]

/-- A login is read back from its document. -/
theorem Login.decode_encode (l : Login) : Login.decode (Utf8.octets l.encode) = .ok l := by
  rw [Login.decode, Login.encode, Schema.decode_encode _ Login.sound]
  rfl
end RowGate
