import RowGate.Proofs.Digits
import RowGate.Proofs.Json.Words

/-! # Integers of any length

Digits without a point or an exponent are read as the natural that they stand for, as long as it
fits 64 bits. Once it does not, the scanner keeps to doubles and never comes back to naturals,
whatever follows.
-/
namespace RowGate.Json

/-- What digits stand for behind those that gave `n`. -/
def digitsValue (n : Nat) (ds : Octets) : Nat := ds.foldl (fun n b => 10 * n + digitValue b) n

theorem digitsValue_cons (n : Nat) (b : UInt8) (ds : Octets) :
    digitsValue n (b :: ds) = digitsValue (10 * n + digitValue b) ds := List.foldl_cons

theorem le_digitsValue (n : Nat) (ds : Octets) : n ≤ digitsValue n ds := by
  induction ds generalizing n with
  | nil => exact Nat.le_refl n
  | cons b ds ih =>
    have hstep := ih (10 * n + digitValue b)
    rw [digitsValue_cons]
    omega

section Doubles
variable {negative : Bool} {n : Nat} {k : Int} {m : Numeral} {s rest : Octets}

theorem double_of_fromParts (h : (fromParts negative n k).map (·, s) = .ok (m, rest)) :
    ∃ d, m = .double d := by
  obtain ⟨hparts, -⟩ := map_pair_eq_ok h
  obtain ⟨d, -, rfl⟩ := map_eq_ok_iff.mp hparts
  exact ⟨_, rfl⟩

theorem double_of_exponentDigits {down : Bool} {e : Nat}
    (h : exponentDigits negative down n k e s = .ok (m, rest)) : ∃ d, m = .double d := by
  fun_induction exponentDigits negative down n k e s with
  | case1 => exact double_of_fromParts h
  | case2 _ _ _ _ _ ih => exact ih h
  | case3 => cases h
  | case4 =>
    cases h
    exact ⟨_, rfl⟩
  | case5 => exact double_of_fromParts h

theorem double_of_scaled (h : scaled negative n k s = .ok (m, rest)) : ∃ d, m = .double d := by
  cases s with
  | nil => exact double_of_fromParts h
  | cons b s =>
    rw [scaled] at h
    split at h
    · obtain ⟨_, _, _, _, -, -, -, hdigits, -⟩ := exponent_eq h
      exact double_of_exponentDigits hdigits
    · exact double_of_fromParts h

theorem double_of_places {any : Bool} (h : places negative n k any s = .ok (m, rest)) :
    ∃ d, m = .double d := by
  fun_induction places negative n k any s with
  | case1 => exact double_of_scaled h
  | case2 => cases h
  | case3 _ _ _ _ _ _ _ ih => exact ih h
  | case4 => exact double_of_scaled h
  | case5 => exact double_of_scaled h
  | case6 => cases h

theorem double_of_longInteger (h : longInteger negative n k s = .ok (m, rest)) :
    ∃ d, m = .double d := by
  fun_induction longInteger negative n k s with
  | case1 => exact double_of_scaled h
  | case2 _ _ _ _ ih => exact ih h
  | case3 => exact double_of_places h
  | case4 => exact double_of_scaled h

end Doubles

section Digits
variable {negative : Bool} {n : Nat} {m : Numeral} {ds d rest rest' : Octets}

theorem integerDigits_value (hds : AllDigits ds) (hrest : EndsNumber rest)
    (hfits : digitsValue n ds < wordBound 64) :
    integerDigits false n (ds ++ rest) = .ok (.natural (digitsValue n ds), rest) := by
  induction ds generalizing n with
  | nil => exact integerDigits_end false n hrest
  | cons b ds ih =>
    obtain ⟨hb, hds⟩ := List.forall_mem_cons.mp hds
    rw [digitsValue_cons] at hfits ⊢
    have hfront : 10 * n + digitValue b < wordBound 64 :=
      Nat.lt_of_le_of_lt (le_digitsValue _ ds) hfits
    rw [List.cons_append, integerDigits, if_pos hb, if_pos hfront]
    exact ih hds hfits

theorem double_of_integerDigits (hds : AllDigits ds) (hn : n < wordBound 64)
    (hlong : wordBound 64 ≤ digitsValue n ds)
    (h : integerDigits negative n (ds ++ rest) = .ok (m, rest')) : ∃ d, m = .double d := by
  induction ds generalizing n with
  | nil => exact absurd hlong (Nat.not_le_of_lt hn)
  | cons b ds ih =>
    obtain ⟨hb, hds⟩ := List.forall_mem_cons.mp hds
    rw [List.cons_append, integerDigits, if_pos hb] at h
    split at h
    · next hfront => exact ih hds hfront hlong h
    · exact double_of_longInteger h

theorem digitValue_lt (b : UInt8) : digitValue b < wordBound 64 := by
  have hb : digitValue b < 256 := Nat.lt_of_le_of_lt (Nat.sub_le _ _) b.toNat_lt
  exact Nat.lt_trans hb (by decide)

theorem numeral_digit {b : UInt8} (hb : isDigit b = true) (hz : b ≠ 0x30) (s : Octets) :
    numeral negative (b :: s) = integerDigits negative (digitValue b) s := by
  have hzero : letter b ≠ '0' := letter_ne hz
  rw [numeral.eq_def]
  simp only [if_neg hzero, if_pos hb]

theorem digitsValue_zero_cons (b : UInt8) (ds : Octets) :
    digitsValue 0 (b :: ds) = digitsValue (digitValue b) ds := by
  rw [digitsValue_cons, Nat.mul_zero, Nat.zero_add]

/-- An integer that fits 64 bits is read as the natural that it stands for. -/
theorem IsInteger.numeral (hd : IsInteger d) (hrest : EndsNumber rest)
    (hfits : digitsValue 0 d < wordBound 64) :
    Json.numeral false (d ++ rest) = .ok (.natural (digitsValue 0 d), rest) := by
  cases hd with
  | zero =>
    have hscan := numeral_write (wordBound_pos 64) hrest
    have hchars : Utf8.encode (RowGate.Digits.write 0) = [0x30] := by
      rw [RowGate.Digits.write, if_pos (by decide), encode_digit (by decide)]
      rfl
    rw [hchars] at hscan
    exact hscan
  | @digits b ds hb hz hds =>
    rw [digitsValue_zero_cons] at hfits ⊢
    rw [List.cons_append, numeral_digit hb hz, integerDigits_value hds hrest hfits]

/-- A longer integer is read as a double, if at all. -/
theorem IsInteger.double_of_numeral (hd : IsInteger d) (hlong : wordBound 64 ≤ digitsValue 0 d)
    (h : Json.numeral negative (d ++ rest) = .ok (m, rest')) : ∃ x, m = .double x := by
  cases hd with
  | zero => exact absurd hlong (by decide)
  | @digits b ds hb hz hds =>
    rw [digitsValue_zero_cons] at hlong
    rw [List.cons_append, numeral_digit hb hz] at h
    exact double_of_integerDigits hds (digitValue_lt b) hlong h

theorem IsInteger.allDigits (hd : IsInteger d) : d ≠ [] ∧ AllDigits d := by
  cases hd with
  | zero => exact ⟨List.cons_ne_nil _ _, List.forall_mem_singleton.mpr rfl⟩
  | digits hb _ hds => exact ⟨List.cons_ne_nil _ _, .cons hb hds⟩

theorem letter_digit {b : UInt8} (hb : isDigit b = true) :
    RowGate.Digits.isDigit (letter b) = true ∧ RowGate.Digits.value (letter b) = digitValue b ∧
      String.utf8EncodeChar (letter b) = [b] := by
  simp only [isDigit, Bool.and_eq_true, decide_eq_true_eq, UInt8.le_iff_toNat_le] at hb
  have hlow : 48 ≤ b.toNat := hb.1
  have hhigh : b.toNat ≤ 57 := hb.2
  have hletter := toNat_letter b
  refine ⟨?_, ?_, Utf8.encodeChar_one (UInt8.lt_iff_toNat_lt.mpr ?_)⟩
  · simp only [RowGate.Digits.isDigit, Bool.and_eq_true, decide_eq_true_eq, Char.le_def,
      UInt32.le_iff_toNat_le]
    constructor
    · change 48 ≤ (letter b).toNat
      omega
    · change (letter b).toNat ≤ 57
      omega
  · rw [RowGate.Digits.value, hletter]
    rfl
  · change b.toNat < 128
    omega

/-- Digits are the octets of digit characters, which are read as the same natural. -/
theorem AllDigits.letters (hds : AllDigits ds) : Utf8.encode (ds.map letter) = ds ∧
    (∀ c ∈ ds.map letter, RowGate.Digits.isDigit c = true) ∧
    ∀ n, RowGate.Digits.read n (ds.map letter) = digitsValue n ds := by
  induction ds with
  | nil => exact ⟨rfl, List.forall_mem_nil _, fun _ => rfl⟩
  | cons b ds ih =>
    obtain ⟨hb, hds⟩ := List.forall_mem_cons.mp hds
    obtain ⟨hdigit, hvalue, hchar⟩ := letter_digit hb
    obtain ⟨hencode, hdigits, hread⟩ := ih hds
    refine ⟨?_, List.forall_mem_cons.mpr ⟨hdigit, hdigits⟩, fun n => ?_⟩
    · rw [List.map_cons, Utf8.encode_cons, hencode, hchar]
      rfl
    · rw [List.map_cons, digitsValue_cons, ← hread, ← hvalue]
      rfl

/-- A text whose octets are an integer is a run of digits, and is read as what they stand for. -/
theorem IsInteger.text {text : String} (hd : IsInteger (Utf8.octets text)) : text.toList ≠ [] ∧
    (∀ c ∈ text.toList, RowGate.Digits.isDigit c = true) ∧
    RowGate.Digits.read 0 text.toList = digitsValue 0 (Utf8.octets text) := by
  obtain ⟨hne, hds⟩ := hd.allDigits
  obtain ⟨hencode, hdigits, hread⟩ := hds.letters
  have hsame : text.toList = (Utf8.octets text).map letter := by
    have hdecode := Utf8.decode_encode text.toList
    rw [show Utf8.encode text.toList = Utf8.octets text from rfl, ← hencode,
      Utf8.decode_encode] at hdecode
    exact (Except.ok.inj hdecode).symm
  have hnil : (Utf8.octets text).map letter ≠ [] := fun h => hne (List.map_eq_nil_iff.mp h)
  rw [hsame]
  exact ⟨hnil, hdigits, hread 0⟩

end Digits
end RowGate.Json
