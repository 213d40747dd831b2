import RowGate.Json

/-! # A document on one line

The compact text of a JSON value has no character below the space: strings write such characters
by number or as a letter, and numbers and brackets have none. So it never breaks its line.
-/
namespace RowGate

namespace Text

/-- Nothing in the text ends the line that it stands on. -/
def OnOneLine (s : List Char) : Prop := ∀ c ∈ s, 32 ≤ c.toNat

@[simp] theorem onOneLine_nil : OnOneLine [] := by simp [OnOneLine]

@[simp] theorem onOneLine_cons {c : Char} {s : List Char} :
    OnOneLine (c :: s) ↔ 32 ≤ c.toNat ∧ OnOneLine s := by simp [OnOneLine]

@[simp] theorem onOneLine_append {s t : List Char} :
    OnOneLine (s ++ t) ↔ OnOneLine s ∧ OnOneLine t := by
  simp only [OnOneLine, List.mem_append, or_imp, forall_and]

@[simp] theorem onOneLine_replicate {n : Nat} {c : Char} (h : 32 ≤ c.toNat) :
    OnOneLine (List.replicate n c) := by
  intro d hd
  rw [List.eq_of_mem_replicate hd]
  exact h

theorem OnOneLine.sublist {s t : List Char} (h : OnOneLine t) (hs : s.Sublist t) : OnOneLine s :=
  fun c hc => h c (hs.subset hc)

theorem OnOneLine.newline_notMem {s : List Char} (h : OnOneLine s) : '\n' ∉ s :=
  fun hmem => absurd (h '\n' hmem) (by decide)

theorem onOneLine_hexPadded (width n : Nat) : OnOneLine (hexPadded width n) := by
  have digit : ∀ d < 16, 32 ≤ (hexDigit d).toNat := by decide
  induction width generalizing n with
  | zero => exact onOneLine_nil
  | succ width ih =>
    rw [hexPadded]
    have hlast : OnOneLine [hexDigit (n % 16)] := by
      simpa using digit (n % 16) (Nat.mod_lt n (by decide))
    exact onOneLine_append.mpr ⟨ih (n / 16), hlast⟩

end Text
open Text

theorem Digits.onOneLine_write (n : Nat) : OnOneLine (write n) := by
  have digit : ∀ d < 10, 32 ≤ (ofValue d).toNat := by decide
  induction n using Digits.write.induct with
  | case1 n h =>
    rw [write, if_pos h]
    simpa using digit n h
  | case2 n h ih =>
    rw [write, if_neg h]
    have hlast : OnOneLine [ofValue (n % 10)] := by
      simpa using digit (n % 10) (Nat.mod_lt n (by decide))
    exact onOneLine_append.mpr ⟨ih, hlast⟩

namespace Decimal

theorem onOneLine_signText (negative : Bool) : OnOneLine (signText negative) := by
  cases negative with
  | false => exact onOneLine_nil
  | true => simp [signText]

theorem onOneLine_layout {ds : List Char} (h : OnOneLine ds) (k : Int) :
    OnOneLine (layout ds k) := by
  have htake (n : Nat) : OnOneLine (ds.take n) := h.sublist (List.take_sublist n ds)
  have hdrop (n : Nat) : OnOneLine (ds.drop n) := h.sublist (List.drop_sublist n ds)
  have hzeros (n : Nat) : OnOneLine (List.replicate n '0') := onOneLine_replicate (by decide)
  unfold layout
  dsimp only
  split
  · split
    · simp [h, hzeros]
    · split
      · simp [htake, hdrop]
      · simp [h, hzeros]
  · have hexponent : OnOneLine (if 0 ≤ k + ds.length - 1
        then '+' :: Digits.write (k + ds.length - 1).toNat
        else '-' :: Digits.write (-(k + ds.length - 1)).toNat) := by
      split
      · simp [Digits.onOneLine_write]
      · simp [Digits.onOneLine_write]
    refine onOneLine_append.mpr ⟨onOneLine_append.mpr ⟨?_, by simp⟩, hexponent⟩
    cases ds with
    | nil => exact onOneLine_nil
    | cons d ds =>
      obtain ⟨hd, hds⟩ := onOneLine_cons.mp h
      cases ds with
      | nil => simpa using hd
      | cons d' ds => simpa [hd] using hds

theorem onOneLine_doubleChars (d : Double) : OnOneLine (doubleChars d) := by
  cases d with
  | finite s m e =>
    unfold doubleChars
    refine onOneLine_append.mpr ⟨onOneLine_signText s, ?_⟩
    by_cases hm : m = 0
    · rw [if_pos hm]
      simp
    · rw [if_neg hm]
      cases shortest m e with
      | mk n k => exact onOneLine_layout (Digits.onOneLine_write n) k
  | infinite s => simp [doubleChars, onOneLine_signText]
  | nan => simp [doubleChars]

end Decimal

namespace Json

theorem onOneLine_numeralChars (n : Numeral) : OnOneLine (numeralChars n) := by
  cases n with
  | natural n => exact Digits.onOneLine_write n
  | negative n => simpa [numeralChars] using Digits.onOneLine_write n
  | double d => exact Decimal.onOneLine_doubleChars d

theorem onOneLine_escapeChar (c : Char) : OnOneLine (escapeChar c) := by
  unfold escapeChar
  split
  · simp
  split
  · simp
  split
  · simp
  split
  · simp
  split
  · simp
  split
  · simp
  split
  · simp
  split
  · simp [onOneLine_hexPadded]
  · next h => simpa using Nat.le_of_not_lt h

theorem onOneLine_stringChars (s : String) : OnOneLine (stringChars s) := by
  have hescaped : OnOneLine (s.toList.flatMap escapeChar) := by
    intro c hc
    obtain ⟨d, -, hd⟩ := List.mem_flatMap.mp hc
    exact onOneLine_escapeChar d c hd
  simp [stringChars, hescaped]

theorem onOneLine_commaSeparated {pieces : List (List Char)} (h : ∀ p ∈ pieces, OnOneLine p) :
    OnOneLine (commaSeparated pieces) := by
  induction pieces using commaSeparated.induct with
  | case1 => exact onOneLine_nil
  | case2 x => exact h x (by simp)
  | case3 x y rest ih =>
    have hrest : OnOneLine (commaSeparated (y :: rest)) :=
      ih fun p hp => h p (List.mem_cons_of_mem x hp)
    simpa [commaSeparated, hrest] using h x (by simp)

mutual
/-- One case per constructor; the parts of an array or an object go before it. -/
theorem onOneLine_chars : ∀ v : Json, OnOneLine (chars v)
  | .null => by simp [chars]
  | .boolean b => by cases b <;> simp [chars, boolChars]
  | .number n => by simpa [chars] using onOneLine_numeralChars n
  | .string s => by simpa [chars] using onOneLine_stringChars s
  | .array items => by
    have hitems := onOneLine_commaSeparated (onOneLine_itemChars items)
    simpa [chars] using hitems
  | .object members => by
    have hmembers := onOneLine_commaSeparated (onOneLine_memberChars members)
    simpa [chars] using hmembers

theorem onOneLine_itemChars : ∀ items : List Json, ∀ p ∈ itemChars items, OnOneLine p
  | [] => by simp [itemChars]
  | v :: rest => by
    simp only [itemChars, List.forall_mem_cons]
    exact ⟨onOneLine_chars v, onOneLine_itemChars rest⟩

theorem onOneLine_memberChars :
    ∀ members : List (String × Json), ∀ p ∈ memberChars members, OnOneLine p
  | [] => by simp [memberChars]
  | (k, v) :: rest => by
    simp only [memberChars, List.forall_mem_cons]
    have hmember : OnOneLine (stringChars k ++ ':' :: chars v) := by
      simp [onOneLine_stringChars, onOneLine_chars v]
    exact ⟨hmember, onOneLine_memberChars rest⟩
end

end Json
end RowGate
