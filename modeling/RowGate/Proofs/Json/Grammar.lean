import Mathlib.Data.List.TakeWhile
import RowGate.Proofs.Json
import RowGate.Proofs.Outcome

/-! # Well-formed JSON

The grammar of the format, apart from all readers: which octets are a number, which may stand
between the quotes of a string, and which are a value. A value is told by its form, where the
blanks between its words are dropped and its numbers and strings stand as they are written. A
number is the only value whose end does not show, so what follows it must not continue it.
-/
namespace RowGate.Json

def Blank (w : Octets) : Prop := ∀ b ∈ w, isSpace b = true

theorem blank_singleton {b : UInt8} (h : isSpace b = true) : Blank [b] :=
  List.forall_mem_singleton.mpr h

theorem Blank.append {w w' : Octets} (hw : Blank w) (hw' : Blank w') : Blank (w ++ w') :=
  List.forall_mem_append.mpr ⟨hw, hw'⟩

def AllDigits (ds : Octets) : Prop := ∀ b ∈ ds, isDigit b = true

/-- Digits that start with zero only when they are zero. -/
inductive IsInteger : Octets → Prop where
  | zero : IsInteger [0x30]
  | digits {b : UInt8} {ds : Octets} (hb : isDigit b = true) (hz : b ≠ 0x30) (hds : AllDigits ds) :
      IsInteger (b :: ds)

inductive IsFraction : Octets → Prop where
  | none : IsFraction []
  | point {b : UInt8} {ds : Octets} (hb : isDigit b = true) (hds : AllDigits ds) :
      IsFraction (0x2E :: b :: ds)

inductive IsSign : Octets → Prop where
  | none : IsSign []
  | plus : IsSign [0x2B]
  | minus : IsSign [0x2D]

inductive IsPower : Octets → Prop where
  | mk {sign ds : Octets} {b : UInt8} (hs : IsSign sign) (hb : isDigit b = true)
      (hds : AllDigits ds) : IsPower (sign ++ b :: ds)

inductive IsExponent : Octets → Prop where
  | none : IsExponent []
  | power {e : UInt8} {d : Octets} (he : isExponentLetter e = true) (hd : IsPower d) :
      IsExponent (e :: d)

inductive IsScale : Octets → Prop where
  | mk {f e : Octets} (hf : IsFraction f) (he : IsExponent e) : IsScale (f ++ e)

inductive IsNumeral : Octets → Prop where
  | mk {i d : Octets} (hi : IsInteger i) (hd : IsScale d) : IsNumeral (i ++ d)

inductive IsBody : Octets → Prop where
  | nil : IsBody []
  | plain {b : UInt8} {s : Octets} (hq : b ≠ 0x22) (hb : b ≠ 0x5C) (hc : 0x20 ≤ b) (h : IsBody s) :
      IsBody (b :: s)
  | short {e : UInt8} {s : Octets} (he : (shortEscape e).isSome = true) (h : IsBody s) :
      IsBody (0x5C :: e :: s)
  | numbered {a b c d : UInt8} {s : Octets} (hn : (hex4 a b c d).isSome = true) (h : IsBody s) :
      IsBody (0x5C :: 0x75 :: a :: b :: c :: d :: s)

/-- The characters that such octets stand for, where they stand for any: a half of a surrogate pair
does not by itself. -/
inductive Denotes : Octets → List Char → Prop where
  | nil : Denotes [] []
  | plain {c : Char} {s : Octets} {t : List Char} (hq : c ≠ '"') (hb : c ≠ '\\')
      (hc : 0x20 ≤ c.toNat) (h : Denotes s t) : Denotes (String.utf8EncodeChar c ++ s) (c :: t)
  | short {e x : UInt8} {s : Octets} {t : List Char} (he : shortEscape e = some x)
      (h : Denotes s t) : Denotes (0x5C :: e :: s) (letter x :: t)
  | numbered {a b c d : UInt8} {n : Nat} {s : Octets} {t : List Char} (hn : hex4 a b c d = some n)
      (hl : isLowSurrogate n = false) (hh : isHighSurrogate n = false) (h : Denotes s t) :
      Denotes (0x5C :: 0x75 :: a :: b :: c :: d :: s) (Char.ofNat n :: t)
  | pair {a b c d a' b' c' d' : UInt8} {n m : Nat} {s : Octets} {t : List Char}
      (hn : hex4 a b c d = some n) (hh : isHighSurrogate n = true) (hm : hex4 a' b' c' d' = some m)
      (hl : isLowSurrogate m = true) (h : Denotes s t) :
      Denotes (0x5C :: 0x75 :: a :: b :: c :: d :: 0x5C :: 0x75 :: a' :: b' :: c' :: d' :: s)
        (Char.ofNat (pairValue n m) :: t)

/-- A value as it is written, but for blanks. -/
inductive Form where
  | null
  | boolean (b : Bool)
  | number (negative : Bool) (digits : Octets)
  | string (body : Octets)
  | array (items : List Form)
  | object (members : List (Octets × Form))

mutual
/-- The octets of a value, with no blanks around it. -/
inductive Spells : Form → Octets → Prop where
  | null : Spells .null [0x6E, 0x75, 0x6C, 0x6C]
  | isTrue : Spells (.boolean true) [0x74, 0x72, 0x75, 0x65]
  | isFalse : Spells (.boolean false) [0x66, 0x61, 0x6C, 0x73, 0x65]
  | negative {d : Octets} (h : IsNumeral d) : Spells (.number true d) (0x2D :: d)
  | natural {d : Octets} (h : IsNumeral d) : Spells (.number false d) d
  | string {body : Octets} (h : IsBody body) : Spells (.string body) (0x22 :: (body ++ [0x22]))
  | noItems {w : Octets} (hw : Blank w) : Spells (.array []) (0x5B :: (w ++ [0x5D]))
  | array {items : List Form} {d : Octets} (h : SpellsItems items d) :
      Spells (.array items) (0x5B :: d)
  | noMembers {w : Octets} (hw : Blank w) : Spells (.object []) (0x7B :: (w ++ [0x7D]))
  | object {members : List (Octets × Form)} {d : Octets} (h : SpellsMembers members d) :
      Spells (.object members) (0x7B :: d)

inductive SpellsItems : List Form → Octets → Prop where
  | last {f : Form} {w w' d : Octets} (hw : Blank w) (hf : Spells f d) (hw' : Blank w') :
      SpellsItems [f] (w ++ (d ++ (w' ++ [0x5D])))
  | more {f : Form} {l : List Form} {w w' d more : Octets} (hw : Blank w) (hf : Spells f d)
      (hw' : Blank w') (hl : SpellsItems l more) :
      SpellsItems (f :: l) (w ++ (d ++ (w' ++ 0x2C :: more)))

inductive SpellsMember : Octets × Form → Octets → Prop where
  | mk {body : Octets} {f : Form} {w₁ w₂ w₃ d : Octets} (hw₁ : Blank w₁) (hk : IsBody body)
      (hw₂ : Blank w₂) (hw₃ : Blank w₃) (hf : Spells f d) :
      SpellsMember (body, f) (w₁ ++ 0x22 :: (body ++ 0x22 :: (w₂ ++ 0x3A :: (w₃ ++ d))))

inductive SpellsMembers : List (Octets × Form) → Octets → Prop where
  | last {m : Octets × Form} {w d : Octets} (hm : SpellsMember m d) (hw : Blank w) :
      SpellsMembers [m] (d ++ (w ++ [0x7D]))
  | more {m : Octets × Form} {l : List (Octets × Form)} {w d more : Octets}
      (hm : SpellsMember m d) (hw : Blank w) (hl : SpellsMembers l more) :
      SpellsMembers (m :: l) (d ++ (w ++ 0x2C :: more))
end

theorem octet_of_letter {b : UInt8} {c : Char} (h : letter b = c) : b = UInt8.ofNat c.toNat := by
  rw [← h, toNat_letter, UInt8.ofNat_toNat]

theorem letter_ne {b : UInt8} {c : Char} (h : b ≠ UInt8.ofNat c.toNat) : letter b ≠ c :=
  fun hb => h (octet_of_letter hb)

theorem isSpace_of_isDigit {b : UInt8} (h : isDigit b = true) : isSpace b = false := by
  simp only [isDigit, isSpace] at *
  grind

theorem IsNumeral.exists_digit {d : Octets} (h : IsNumeral d) :
    ∃ b ds, isDigit b = true ∧ d = b :: ds := by
  obtain ⟨hi, hd⟩ := h
  cases hi with
  | zero => exact ⟨0x30, _, rfl, rfl⟩
  | digits hb hz hds => exact ⟨_, _, hb, rfl⟩

/-- A value starts with a word of its own and not with what closes an array. -/
theorem Spells.exists_head {f : Form} {d : Octets} (h : Spells f d) :
    ∃ b ds, isSpace b = false ∧ b ≠ 0x5D ∧ d = b :: ds := by
  cases h with
  | natural h =>
    obtain ⟨b, ds, hb, rfl⟩ := h.exists_digit
    have hne : b ≠ 0x5D := by
      rintro rfl
      cases hb
    exact ⟨b, ds, isSpace_of_isDigit hb, hne, rfl⟩
  | _ => exact ⟨_, _, rfl, by decide, rfl⟩

theorem Spells.head_ne_null {f : Form} {d : Octets} (h : Spells f d) (hf : f ≠ .null) :
    ∃ b t, letter b ≠ 'n' ∧ d = b :: t := by
  cases h with
  | null => exact absurd rfl hf
  | natural h =>
    obtain ⟨b, t, hb, rfl⟩ := h.exists_digit
    refine ⟨b, t, fun hn => ?_, rfl⟩
    obtain rfl : b = 0x6E := octet_of_letter hn
    cases hb
  | _ => exact ⟨_, _, by decide, rfl⟩

theorem skipBlank_append {w : Octets} (hw : Blank w) (s : Octets) :
    skipBlank (w ++ s) = skipBlank s :=
  List.dropWhile_append_of_pos hw

theorem skipBlank_blank {w : Octets} (hw : Blank w) : skipBlank w = [] :=
  List.dropWhile_eq_nil_iff.mpr fun b hb => hw b hb

theorem skipBlank_cons {b : UInt8} (hb : isSpace b = false) (s : Octets) :
    skipBlank (b :: s) = b :: s :=
  List.dropWhile_cons_of_neg (by rw [hb]; exact Bool.false_ne_true)

theorem Spells.skipBlank_append {f : Form} {d w : Octets} (h : Spells f d) (hw : Blank w)
    (rest : Octets) : skipBlank (w ++ (d ++ rest)) = d ++ rest := by
  obtain ⟨b, ds, hb, -, rfl⟩ := h.exists_head
  rw [Json.skipBlank_append hw, List.cons_append, skipBlank_cons hb]

/-- What is not skipped stands behind blanks. -/
theorem exists_blank_of_skipBlank {s t : Octets} (h : skipBlank s = t) :
    ∃ w, Blank w ∧ s = w ++ t := by
  refine ⟨s.takeWhile isSpace, List.all_eq_true.mp List.all_takeWhile, ?_⟩
  rw [← h, skipBlank, List.takeWhile_append_dropWhile]

theorem isSpace_of_skipBlank {s t : Octets} {b : UInt8} (h : skipBlank s = b :: t) :
    isSpace b = false := by
  have hhead := List.head?_dropWhile_not isSpace s
  rw [show s.dropWhile isSpace = b :: t from h] at hhead
  exact hhead

/-- What stands behind blanks does not continue a number when it starts with a comma or closes. -/
theorem endsNumber_of_skipBlank {s t : Octets} {b : UInt8} (h : skipBlank s = b :: t)
    (hb : b = 0x2C ∨ b = 0x5D ∨ b = 0x7D) : EndsNumber s := by
  have head : ∀ b, isSpace b = true ∨ b = 0x2C ∨ b = 0x5D ∨ b = 0x7D →
      isDigit b = false ∧ letter b ≠ '.' ∧ isExponentLetter b = false := by
    intro b hb
    simp only [isSpace, Bool.or_eq_true, decide_eq_true_eq] at hb
    rcases hb with (((rfl | rfl) | rfl) | rfl) | rfl | rfl | rfl <;> decide
  intro c hc
  obtain ⟨w, hw, rfl⟩ := exists_blank_of_skipBlank h
  cases w with
  | nil =>
    cases hc
    exact head b (.inr hb)
  | cons _ w =>
    cases hc
    exact head c (.inl (hw c List.mem_cons_self))

theorem endsNumber_append {w t : Octets} {b : UInt8} (hw : Blank w)
    (hb : b = 0x2C ∨ b = 0x5D ∨ b = 0x7D) : EndsNumber (w ++ b :: t) := by
  have hspace : isSpace b = false := by
    rcases hb with rfl | rfl | rfl <;> rfl
  exact endsNumber_of_skipBlank (by rw [skipBlank_append hw, skipBlank_cons hspace]) hb

/-- What follows a value does not continue it. -/
def Form.Ends : Form → Octets → Prop
  | .number _ _, rest => EndsNumber rest
  | _, _ => True

theorem Form.ends_of_endsNumber {rest : Octets} (h : EndsNumber rest) (f : Form) : f.Ends rest := by
  cases f with
  | number => exact h
  | _ => trivial

theorem Spells.head_ne_bracket {f : Form} {d w : Octets} (h : Spells f d) (hw : Blank w)
    (rest : Octets) : ∃ b t, skipBlank (w ++ (d ++ rest)) = b :: t ∧ letter b ≠ ']' := by
  rw [h.skipBlank_append hw]
  obtain ⟨b, ds, -, hb, rfl⟩ := h.exists_head
  exact ⟨b, ds ++ rest, rfl, letter_ne hb⟩

theorem SpellsItems.head_ne_bracket {l : List Form} {d : Octets} (h : SpellsItems l d)
    (rest : Octets) : ∃ b t, skipBlank (d ++ rest) = b :: t ∧ letter b ≠ ']' := by
  cases h with
  | last hw hf _ =>
    simp only [List.append_assoc]
    exact hf.head_ne_bracket hw _
  | more hw hf _ _ =>
    simp only [List.append_assoc]
    exact hf.head_ne_bracket hw _

theorem SpellsMember.exists_quote {m : Octets × Form} {d : Octets} (h : SpellsMember m d)
    (rest : Octets) : ∃ t, skipBlank (d ++ rest) = 0x22 :: t := by
  obtain ⟨hw, -⟩ := h
  rw [List.append_assoc, skipBlank_append hw]
  exact ⟨_, rfl⟩

theorem SpellsMembers.exists_quote {l : List (Octets × Form)} {d : Octets} (h : SpellsMembers l d)
    (rest : Octets) : ∃ t, skipBlank (d ++ rest) = 0x22 :: t := by
  cases h with
  | last hm _ =>
    rw [List.append_assoc]
    exact hm.exists_quote _
  | more hm _ _ =>
    rw [List.append_assoc]
    exact hm.exists_quote _

theorem SpellsItems.behind_blank {l : List Form} {d w : Octets} (h : SpellsItems l d)
    (hw : Blank w) : SpellsItems l (w ++ d) := by
  cases h with
  | last hw₁ hf hw₂ =>
    rw [← List.append_assoc]
    exact .last (hw.append hw₁) hf hw₂
  | more hw₁ hf hw₂ hl =>
    rw [← List.append_assoc]
    exact .more (hw.append hw₁) hf hw₂ hl

theorem SpellsMember.behind_blank {m : Octets × Form} {d w : Octets} (h : SpellsMember m d)
    (hw : Blank w) : SpellsMember m (w ++ d) := by
  cases h with
  | mk hw₁ hk hw₂ hw₃ hf =>
    rw [← List.append_assoc]
    exact .mk (hw.append hw₁) hk hw₂ hw₃ hf

theorem SpellsMembers.behind_blank {l : List (Octets × Form)} {d w : Octets}
    (h : SpellsMembers l d) (hw : Blank w) : SpellsMembers l (w ++ d) := by
  cases h with
  | last hm hw' =>
    rw [← List.append_assoc]
    exact .last (hm.behind_blank hw) hw'
  | more hm hw' hl =>
    rw [← List.append_assoc]
    exact .more (hm.behind_blank hw) hw' hl

theorem SpellsItems.length_le {l : List Form} {d : Octets} (h : SpellsItems l d) :
    l.length ≤ d.length := by
  induction l generalizing d with
  | nil => cases h
  | cons f l ih =>
    cases h with
    | last =>
      simp only [List.length_append, List.length_cons, List.length_nil]
      omega
    | more _ _ _ hl =>
      have hlen := ih hl
      simp only [List.length_append, List.length_cons]
      omega

theorem SpellsMembers.length_le {l : List (Octets × Form)} {d : Octets} (h : SpellsMembers l d) :
    l.length ≤ d.length := by
  induction l generalizing d with
  | nil => cases h
  | cons m l ih =>
    cases h with
    | last =>
      simp only [List.length_append, List.length_cons, List.length_nil]
      omega
    | more _ _ hl =>
      have hlen := ih hl
      simp only [List.length_append, List.length_cons]
      omega

end RowGate.Json
