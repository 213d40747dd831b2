import RowGate.Proofs.Json.Documents
import RowGate.Proofs.Record

/-! # What is written is read

The text of a value is a document, compact or pretty, and what is read of it is the value. The
pieces of a group are put together in one way for both layouts: a comma between neighbours, blanks
before each piece and blanks before what closes the group. Doubles are left out, for these are
written by their shortest digits and not by their value.
-/
namespace RowGate.Json

/-- Values without doubles, all of whose integers fit 64 bits. -/
inductive Exact : Json → Prop where
  | null : Exact .null
  | boolean (b : Bool) : Exact (.boolean b)
  | natural {n : Nat} (h : n < wordBound 64) : Exact (.number (.natural n))
  | negative {n : Nat} (hpos : 0 < n) (h : n ≤ wordBound 63) : Exact (.number (.negative n))
  | string (s : String) : Exact (.string s)
  | array {items : List Json} (h : ∀ v ∈ items, Exact v) : Exact (.array items)
  | object {members : List (String × Json)} (h : ∀ m ∈ members, Exact m.2) : Exact (.object members)

/-- Characters that spell a value, with no blanks around it. -/
def Writes (s : List Char) (v : Json) : Prop :=
  ∃ f, Spells f (Utf8.encode s) ∧ f.value? = some v

def WritesMember (s : List Char) (m : String × Json) : Prop :=
  ∃ e, SpellsMember e (Utf8.encode s) ∧ bodyText? e.1 = some m.1 ∧ e.2.value? = some m.2

theorem Writes.parse {s : List Char} {v : Json} (h : Writes s v) :
    parse (Utf8.encode s) = .ok v := by
  obtain ⟨f, hf, hv⟩ := h
  exact parse_eq_ok_iff.mpr ⟨f, hf.isText, hv⟩

theorem Writes.unique {s : List Char} {v v' : Json} (h : Writes s v) (h' : Writes s v') : v = v' :=
  Except.ok.inj (h.parse.symm.trans h'.parse)

theorem blank_nil : Blank [] := List.forall_mem_nil _

theorem blank_newline : Blank [0x0A] := blank_singleton rfl

/-- The line break behind a value does not matter. -/
theorem Writes.parse_line {s : List Char} {v : Json} (h : Writes s v) :
    Json.parse (Utf8.encode (s ++ ['\n'])) = .ok v := by
  obtain ⟨f, hf, hv⟩ := h
  have htext := IsText.mk blank_nil hf blank_newline
  rw [Utf8.encode_append]
  exact parse_eq_ok_iff.mpr ⟨f, htext, hv⟩

theorem blank_indent (depth : Nat) : Blank (Utf8.encode (indent depth)) := by
  have hspaces : ∀ n, Blank (Utf8.encode (List.replicate n ' ')) := by
    intro n
    induction n with
    | zero => exact blank_nil
    | succ n ih =>
      rw [List.replicate_succ, Utf8.encode_cons]
      exact (blank_singleton rfl).append ih
  rw [indent, Utf8.encode_cons]
  exact blank_newline.append (hspaces _)

theorem writes_null : Writes "null".toList .null := ⟨.null, .null, rfl⟩

theorem writes_boolean (b : Bool) : Writes (boolChars b) (.boolean b) := by
  cases b with
  | false => exact ⟨.boolean false, .isFalse, rfl⟩
  | true => exact ⟨.boolean true, .isTrue, rfl⟩

theorem endsNumber_nil : EndsNumber [] := nofun

/-- The digits of a natural are a number of the grammar, and its value is that of its sign. -/
theorem isNumeral_write (negative : Bool) {n : Nat} (h : n < wordBound 64) :
    IsNumeral (Utf8.encode (Digits.write n)) ∧
      (Form.number negative (Utf8.encode (Digits.write n))).value? =
        some (.number (integerNumeral negative n)) := by
  have hread := numeral_digits negative h endsNumber_nil
  rw [List.append_nil] at hread
  obtain ⟨d, hd, hfront⟩ := numeral_front hread
  rw [List.append_nil] at hd
  refine ⟨hd ▸ hfront.shape, ?_⟩
  rw [Form.value?, hread]
  rfl

theorem writes_natural {n : Nat} (h : n < wordBound 64) :
    Writes (Digits.write n) (.number (.natural n)) := by
  obtain ⟨hshape, hvalue⟩ := isNumeral_write false h
  exact ⟨_, .natural hshape, hvalue⟩

theorem writes_negative {n : Nat} (hpos : 0 < n) (h : n ≤ wordBound 63) :
    Writes ('-' :: Digits.write n) (.number (.negative n)) := by
  have hfits : n < wordBound 64 := Nat.lt_of_le_of_lt h (by decide)
  have hkept : integerNumeral true n = .negative n := by
    have hin : ¬(n = 0 ∨ wordBound 63 < n) := by omega
    rw [integerNumeral, if_neg hin]
    rfl
  obtain ⟨hshape, hvalue⟩ := isNumeral_write true hfits
  rw [hkept] at hvalue
  exact ⟨_, .negative hshape, hvalue⟩

theorem denotes_escapeChar {c : Char} {s : Octets} {t : List Char} (h : Denotes s t) :
    Denotes (Utf8.encode (escapeChar c) ++ s) (c :: t) := by
  have eq_of_toNat : ∀ d : Char, c.toNat = d.toNat → c = d := fun d hd => Char.toNat_inj.mp hd
  unfold escapeChar
  split
  · next hc => subst hc; exact .short (x := 0x22) rfl h
  split
  · next hc => subst hc; exact .short (x := 0x5C) rfl h
  split
  · next hc => subst hc; exact .short (x := 0x0A) rfl h
  split
  · next hc => subst hc; exact .short (x := 0x0D) rfl h
  split
  · next hc => subst hc; exact .short (x := 0x09) rfl h
  split
  · next hc =>
    rw [eq_of_toNat (letter 8) hc]
    exact .short rfl h
  split
  · next hc =>
    rw [eq_of_toNat (letter 12) hc]
    exact .short rfl h
  split
  · next hc =>
    obtain ⟨a, b, d, e, hw, hn⟩ := hex4_padded hc
    have hl : isLowSurrogate c.toNat = false := by simp [isLowSurrogate]; omega
    have hh : isHighSurrogate c.toNat = false := by simp [isHighSurrogate]; omega
    have hnumbered := Denotes.numbered hn hl hh h
    rw [Char.ofNat_toNat] at hnumbered
    change Denotes (0x5C :: 0x75 :: (Utf8.encode (Text.hexPadded 4 c.toNat) ++ s)) _
    rw [hw]
    exact hnumbered
  · next hq hb _ _ _ _ _ hc =>
    rw [show Utf8.encode [c] = String.utf8EncodeChar c from List.append_nil _]
    exact .plain hq hb (Nat.le_of_not_lt hc) h

/-- What is escaped stands for the text that it was. -/
theorem denotes_escaped (t : List Char) : Denotes (Utf8.encode (t.flatMap escapeChar)) t := by
  induction t with
  | nil => exact .nil
  | cons c t ih =>
    rw [List.flatMap_cons, Utf8.encode_append]
    exact denotes_escapeChar ih

/-- What stands for a text may stand between quotes, and is read as the text there. -/
theorem Denotes.bodyText? {body : Octets} {t : String} (h : Denotes body t.toList) :
    IsBody body ∧ Json.bodyText? body = some t := by
  have hread := h.stringText []
  obtain ⟨body', hbody, hs, -⟩ := stringText_body hread
  obtain rfl := List.append_cancel_right hs
  exact ⟨hbody, whole?_eq_some_iff.mpr hread⟩

theorem encode_stringChars (s : String) : Utf8.encode (stringChars s) =
    0x22 :: (Utf8.encode (s.toList.flatMap escapeChar) ++ [0x22]) := by
  rw [stringChars, Utf8.encode_cons, Utf8.encode_append]
  rfl

theorem writes_string (s : String) : Writes (stringChars s) (.string s) := by
  obtain ⟨hbody, htext⟩ := (denotes_escaped s.toList).bodyText?
  rw [Writes, encode_stringChars]
  refine ⟨_, .string hbody, ?_⟩
  rw [Form.value?, htext]
  rfl

section Groups
variable {w w' : List Char} {pieces : List (List Char)}

theorem writes_items {vs : List Json} (hw : Blank (Utf8.encode w)) (hw' : Blank (Utf8.encode w'))
    (h : List.Forall₂ Writes pieces vs) (hne : pieces ≠ []) :
    ∃ fs, SpellsItems fs (Utf8.encode (commaSeparated (pieces.map (w ++ ·)) ++ (w' ++ [']']))) ∧
      itemValues? fs = some vs := by
  induction h with
  | nil => exact absurd rfl hne
  | @cons p v pieces vs hp hrest ih =>
    obtain ⟨f, hf, hv⟩ := hp
    cases hrest with
    | nil =>
      refine ⟨[f], ?_, itemValues?_eq_some_iff.mpr (.cons hv .nil)⟩
      simp only [List.map_cons, List.map_nil, commaSeparated, Utf8.encode_append, List.append_assoc]
      exact .last hw hf hw'
    | cons hp' hrest =>
      obtain ⟨fs, hfs, hvs⟩ := ih (List.cons_ne_nil _ _)
      refine ⟨f :: fs, ?_, itemValues?_eq_some_iff.mpr (.cons hv (itemValues?_eq_some_iff.mp hvs))⟩
      simp only [List.map_cons, commaSeparated, List.append_assoc, List.cons_append] at hfs ⊢
      rw [Utf8.encode_append, Utf8.encode_append, Utf8.encode_cons]
      exact .more hw hf blank_nil hfs

/-- Pieces that spell values make up an array, whatever blanks stand before each and at the end. -/
theorem writes_array {vs : List Json} (hw : Blank (Utf8.encode w)) (hw' : Blank (Utf8.encode w'))
    (h : List.Forall₂ Writes pieces vs) :
    Writes ('[' :: (commaSeparated (pieces.map (w ++ ·)) ++ (w' ++ [']']))) (.array vs) := by
  cases h with
  | nil =>
    refine ⟨.array [], ?_, rfl⟩
    rw [List.map_nil, commaSeparated, List.nil_append, Utf8.encode_cons, Utf8.encode_append]
    exact .noItems hw'
  | cons hp hrest =>
    obtain ⟨fs, hfs, hvs⟩ := writes_items hw hw' (.cons hp hrest) (List.cons_ne_nil _ _)
    refine ⟨.array fs, ?_, ?_⟩
    · rw [Utf8.encode_cons]
      exact .array hfs
    · rw [Form.value?, hvs]
      rfl

/-- A name in quotes, a colon and a value make up a member, whatever blanks stand between them. -/
theorem writes_member {gap s : List Char} {v : Json} (k : String) (hgap : Blank (Utf8.encode gap))
    (h : Writes s v) : WritesMember (stringChars k ++ ':' :: (gap ++ s)) (k, v) := by
  obtain ⟨f, hf, hv⟩ := h
  obtain ⟨hbody, htext⟩ := (denotes_escaped k.toList).bodyText?
  refine ⟨(_, f), ?_, htext, hv⟩
  have hmember := SpellsMember.mk blank_nil hbody blank_nil hgap hf
  rw [Utf8.encode_append, encode_stringChars, Utf8.encode_cons, Utf8.encode_append]
  simp only [List.nil_append, List.cons_append, List.append_assoc] at hmember ⊢
  exact hmember

theorem WritesMember.behind_blank {s : List Char} {m : String × Json} (h : WritesMember s m)
    (hw : Blank (Utf8.encode w)) : WritesMember (w ++ s) m := by
  obtain ⟨e, he, hm⟩ := h
  refine ⟨e, ?_, hm⟩
  rw [Utf8.encode_append]
  exact he.behind_blank hw

theorem writes_members {ms : List (String × Json)} (hw : Blank (Utf8.encode w))
    (hw' : Blank (Utf8.encode w')) (h : List.Forall₂ WritesMember pieces ms) (hne : pieces ≠ []) :
    ∃ es, SpellsMembers es
        (Utf8.encode (commaSeparated (pieces.map (w ++ ·)) ++ (w' ++ ['\x7d']))) ∧
      memberValues? es = some ms := by
  induction h with
  | nil => exact absurd rfl hne
  | @cons p m pieces ms hp hrest ih =>
    obtain ⟨e, he, hm⟩ := hp.behind_blank hw
    cases hrest with
    | nil =>
      refine ⟨[e], ?_, memberValues?_eq_some_iff.mpr (.cons hm .nil)⟩
      rw [List.map_cons, List.map_nil, commaSeparated, Utf8.encode_append (w ++ p),
        Utf8.encode_append w']
      exact .last he hw'
    | cons hp' hrest =>
      obtain ⟨es, hes, hms⟩ := ih (List.cons_ne_nil _ _)
      have hvalues := memberValues?_eq_some_iff.mp hms
      refine ⟨e :: es, ?_, memberValues?_eq_some_iff.mpr (.cons hm hvalues)⟩
      simp only [List.map_cons, commaSeparated, List.append_assoc, List.cons_append] at hes he ⊢
      rw [← List.append_assoc, Utf8.encode_append, Utf8.encode_cons]
      exact .more he blank_nil hes

theorem writes_object {ms : List (String × Json)} (hw : Blank (Utf8.encode w))
    (hw' : Blank (Utf8.encode w')) (h : List.Forall₂ WritesMember pieces ms) :
    Writes ('\x7b' :: (commaSeparated (pieces.map (w ++ ·)) ++ (w' ++ ['\x7d']))) (.object ms) := by
  cases h with
  | nil =>
    refine ⟨.object [], ?_, rfl⟩
    rw [List.map_nil, commaSeparated, List.nil_append, Utf8.encode_cons, Utf8.encode_append]
    exact .noMembers hw'
  | cons hp hrest =>
    obtain ⟨es, hes, hms⟩ := writes_members hw hw' (.cons hp hrest) (List.cons_ne_nil _ _)
    refine ⟨.object es, ?_, ?_⟩
    · rw [Utf8.encode_cons]
      exact .object hes
    · rw [Form.value?, hms]
      rfl

end Groups

theorem prettyItems_eq (depth : Nat) (items : List Json) :
    prettyItems depth items = items.map (prettyChars depth) := by
  induction items with
  | nil => rw [prettyItems, List.map_nil]
  | cons v items ih => rw [prettyItems, ih, List.map_cons]

theorem prettyMembers_eq (depth : Nat) (members : List (String × Json)) :
    prettyMembers depth members =
      members.map fun m => stringChars m.1 ++ ':' :: ' ' :: prettyChars depth m.2 := by
  induction members with
  | nil => rw [prettyMembers, List.map_nil]
  | cons m members ih => rw [prettyMembers, ih, List.map_cons]

theorem blank_encode_nil : Blank (Utf8.encode []) := blank_nil

theorem map_nil_append (pieces : List (List Char)) : pieces.map ([] ++ ·) = pieces :=
  List.map_id pieces

/-- A block is a group with blanks before each piece and before what closes it. -/
theorem block_eq (opening closing : Char) (depth : Nat) (pieces : List (List Char)) :
    ∃ w w', Blank (Utf8.encode w) ∧ Blank (Utf8.encode w') ∧
      block opening closing depth pieces =
        opening :: (commaSeparated (pieces.map (w ++ ·)) ++ (w' ++ [closing])) := by
  cases pieces with
  | nil => exact ⟨[], [], blank_nil, blank_nil, rfl⟩
  | cons p pieces =>
    refine ⟨indent (depth + 1), indent depth, blank_indent _, blank_indent _, ?_⟩
    rw [block, List.append_assoc]
    exact List.cons_ne_nil _ _

/-- The members of an object are read one by one, each as what its own text is read as. -/
theorem writes_object_chars {ms ms' : List (String × Json)}
    (h : List.Forall₂ (fun m m' => m.1 = m'.1 ∧ Writes (chars m.2) m'.2) ms ms') :
    Writes (chars (.object ms)) (.object ms') := by
  have hpieces : List.Forall₂ WritesMember (ms.map Schema.memberText) ms' := by
    refine List.forall₂_map_left_iff.mpr (h.imp fun m m' hm => ?_)
    obtain ⟨name, v⟩ := m
    obtain ⟨rfl, hv⟩ := hm
    exact writes_member m'.1 blank_encode_nil hv
  have hgroup := writes_object blank_encode_nil blank_encode_nil hpieces
  rw [map_nil_append] at hgroup
  rw [chars, Schema.memberChars_eq]
  exact hgroup

/-- Values whose text can be read, as themselves or not. -/
def Readable (v : Json) : Prop := ∃ v', Writes (chars v) v'

/-- Where the value of each member can be read by itself, an object can be read, and what is found
in it under a name is what the value that it was written with is read as. -/
theorem exists_writes_object {ms : List (String × Json)} (h : ∀ m ∈ ms, Readable m.2) :
    ∃ ms', Writes (chars (.object ms)) (.object ms') ∧ ms'.map (·.1) = ms.map (·.1) ∧
      ∀ k v, ms.lookup k = some v → ∃ v', ms'.lookup k = some v' ∧ Writes (chars v) v' := by
  suffices hmembers : ∃ ms' : List (String × Json),
      List.Forall₂ (fun m m' => m.1 = m'.1 ∧ Writes (chars m.2) m'.2) ms ms' ∧
        ms'.map (·.1) = ms.map (·.1) ∧
        ∀ k v, ms.lookup k = some v → ∃ v', ms'.lookup k = some v' ∧ Writes (chars v) v' by
    obtain ⟨ms', hread, hrest⟩ := hmembers
    exact ⟨ms', writes_object_chars hread, hrest⟩
  induction ms with
  | nil => exact ⟨[], .nil, rfl, nofun⟩
  | cons m ms ih =>
    obtain ⟨⟨v, hv⟩, hms⟩ := List.forall_mem_cons.mp h
    obtain ⟨ms', hread, hnames, hlookup⟩ := ih hms
    refine ⟨(m.1, v) :: ms', .cons ⟨rfl, hv⟩ hread, by rw [List.map_cons, List.map_cons, hnames],
      fun k x hx => ?_⟩
    obtain ⟨name, y⟩ := m
    rw [List.lookup_cons] at hx ⊢
    by_cases hk : (k == name) = true
    · rw [hk] at hx
      rw [hk, ← Option.some.inj hx]
      exact ⟨v, rfl, hv⟩
    · rw [Bool.not_eq_true] at hk
      rw [hk] at hx
      rw [hk]
      exact hlookup k x hx

/-- One case per constructor; the values inside a group are spelled before it. -/
theorem Exact.writes {v : Json} (h : Exact v) : Writes (chars v) v := by
  induction h with
  | null => exact writes_null
  | boolean b => exact writes_boolean b
  | natural h => exact writes_natural h
  | negative hpos h => exact writes_negative hpos h
  | string s => exact writes_string s
  | @array items _ ih =>
    have hitems : List.Forall₂ Writes (items.map chars) items :=
      List.forall₂_map_left_iff.mpr (List.forall₂_same.mpr ih)
    have hgroup := writes_array blank_encode_nil blank_encode_nil hitems
    rw [map_nil_append] at hgroup
    rw [chars, Record.itemChars_eq]
    exact hgroup
  | object _ ih => exact writes_object_chars (List.forall₂_same.mpr fun m hm => ⟨rfl, ih m hm⟩)

theorem Exact.writes_pretty {v : Json} (h : Exact v) (depth : Nat) :
    Writes (prettyChars depth v) v := by
  induction h generalizing depth with
  | null => exact writes_null
  | boolean b => exact writes_boolean b
  | natural h => exact writes_natural h
  | negative hpos h => exact writes_negative hpos h
  | string s => exact writes_string s
  | @array items _ ih =>
    have hitems : List.Forall₂ Writes (items.map (prettyChars (depth + 1))) items :=
      List.forall₂_map_left_iff.mpr (List.forall₂_same.mpr fun v hv => ih v hv (depth + 1))
    rw [prettyChars, prettyItems_eq]
    obtain ⟨w, w', hw, hw', heq⟩ := block_eq '[' ']' depth (items.map (prettyChars (depth + 1)))
    rw [heq]
    exact writes_array hw hw' hitems
  | @object members _ ih =>
    have hgap : Blank (Utf8.encode [' ']) := blank_singleton rfl
    have hmembers : List.Forall₂ WritesMember (members.map fun m =>
        stringChars m.1 ++ ':' :: ' ' :: prettyChars (depth + 1) m.2) members :=
      List.forall₂_map_left_iff.mpr (List.forall₂_same.mpr fun m hm =>
        writes_member m.1 hgap (ih m hm (depth + 1)))
    rw [prettyChars, prettyMembers_eq]
    obtain ⟨w, w', hw, hw', heq⟩ := block_eq '\x7b' '\x7d' depth _
    rw [heq]
    exact writes_object hw hw' hmembers

/-- A pretty text is read as its value, and so it is with a line break behind it. -/
theorem Exact.parse_pretty {v : Json} (h : Exact v) : parseText (v.pretty ++ "\n") = .ok v := by
  have hchars : (v.pretty ++ "\n").toList = prettyChars 0 v ++ ['\n'] := by
    rw [String.toList_append, pretty, String.toList_ofList]
    rfl
  rw [parseText, Utf8.octets, hchars]
  exact (h.writes_pretty 0).parse_line

end RowGate.Json
