import Mathlib.Data.List.Induction
import Mathlib.Data.Nat.Digits.Defs
import Mathlib.Tactic.Ring
import RowGate.Text.Digits

/-! # Reading and writing digits

What is read of some digits is the natural that has them in base ten, and the digits of a natural
are read as it, with leading zeros and without. Zeros behind some digits multiply what is read by
powers of ten.
-/
namespace RowGate.Digits

section Digit
variable {c : Char} {k : Nat}

theorem exists_of_isDigit (h : isDigit c = true) : ∃ k < 10, c = ofValue k := by
  simp only [isDigit, Bool.and_eq_true, decide_eq_true_eq, Char.le_def,
    UInt32.le_iff_toNat_le] at h
  have hlow : 48 ≤ c.toNat := h.1
  have hhigh : c.toNat ≤ 57 := h.2
  refine ⟨c.toNat - 48, by omega, ?_⟩
  have hsum : '0'.toNat + (c.toNat - 48) = c.toNat := by
    change 48 + (c.toNat - 48) = c.toNat
    omega
  rw [ofValue, hsum, Char.ofNat_toNat]

theorem isDigit_ofValue (h : k < 10) : isDigit (ofValue k) = true := by
  have table : ∀ k < 10, isDigit (ofValue k) = true := by decide
  exact table k h

theorem value_ofValue (h : k < 10) : value (ofValue k) = k := by
  have table : ∀ k < 10, value (ofValue k) = k := by decide
  exact table k h

theorem value_lt_of_isDigit (h : isDigit c = true) : value c < 10 := by
  obtain ⟨k, hk, rfl⟩ := exists_of_isDigit h
  rwa [value_ofValue hk]

end Digit

section Reading
variable {ds : List Char} {n : Nat}

theorem read_zero_cons (d : Char) (ds : List Char) : read 0 (d :: ds) = read (value d) ds := by
  rw [read, List.foldl_cons, Nat.mul_zero, Nat.zero_add, read]

theorem read_append_singleton (acc : Nat) (ds : List Char) (c : Char) :
    read acc (ds ++ [c]) = 10 * read acc ds + value c := by
  rw [read, List.foldl_append]
  rfl

/-- Digits are read as digits of base ten, the last of them as the least. -/
theorem read_eq_ofDigits (ds : List Char) :
    read 0 ds = Nat.ofDigits 10 (ds.reverse.map fun c => c.toNat - '0'.toNat) := by
  induction ds using List.reverseRecOn with
  | nil => rfl
  | append_singleton ds c ih =>
    rw [read_append_singleton, ih, List.reverse_append, List.reverse_singleton,
      List.singleton_append, List.map_cons, Nat.ofDigits_cons, Nat.add_comm]
    rfl

theorem read_append_zeros (acc : Nat) (ds : List Char) (k : Nat) :
    read acc (ds ++ List.replicate k '0') = read acc ds * 10 ^ k := by
  induction k with
  | zero => rw [List.replicate_zero, List.append_nil, Nat.pow_zero, Nat.mul_one]
  | succ k ih =>
    have hzero : value '0' = 0 := by decide
    rw [List.replicate_succ', ← List.append_assoc, read_append_singleton, ih, hzero, Nat.pow_succ]
    ring

theorem le_read (acc : Nat) (ds : List Char) : acc ≤ read acc ds := by
  induction ds generalizing acc with
  | nil => exact Nat.le_refl acc
  | cons d ds ih =>
    have hstep : 10 * acc + value d ≤ read acc (d :: ds) := ih _
    omega

theorem read_lt (acc : Nat) (h : ∀ c ∈ ds, isDigit c = true) :
    read acc ds < (acc + 1) * 10 ^ ds.length := by
  induction ds generalizing acc with
  | nil =>
    rw [List.length_nil, Nat.pow_zero, Nat.mul_one]
    exact Nat.lt_succ_self acc
  | cons d ds ih =>
    obtain ⟨hd, hds⟩ := List.forall_mem_cons.mp h
    have hvalue := value_lt_of_isDigit hd
    calc read acc (d :: ds)
        < (10 * acc + value d + 1) * 10 ^ ds.length := ih _ hds
      _ ≤ ((acc + 1) * 10) * 10 ^ ds.length := Nat.mul_le_mul_right _ (by omega)
      _ = (acc + 1) * 10 ^ (d :: ds).length := by
        rw [List.length_cons, Nat.pow_succ, Nat.mul_assoc, Nat.mul_comm 10]

theorem natural?_eq_some_iff : natural? ds = some n ↔
    ds ≠ [] ∧ (∀ c ∈ ds, '0' ≤ c ∧ c ≤ '9') ∧ n = read 0 ds := by
  have hdigits : ds.all isDigit = true ↔ ∀ c ∈ ds, '0' ≤ c ∧ c ≤ '9' := by
    simp [isDigit]
  rw [natural?, ← hdigits, ne_eq, ← List.isEmpty_iff]
  by_cases hne : ds.isEmpty = true
  · rw [if_pos hne]
    exact iff_of_false (Option.some_ne_none n).symm fun h => h.1 hne
  · by_cases hall : ds.all isDigit = true
    · rw [if_neg hne, if_pos hall, Option.some_inj]
      exact ⟨fun h => ⟨hne, hall, h.symm⟩, fun h => h.2.2.symm⟩
    · rw [if_neg hne, if_neg hall]
      exact iff_of_false (Option.some_ne_none n).symm fun h => hall h.2.1

end Reading

section Writing
variable {n width : Nat}

theorem isDigit_write (n : Nat) : ∀ c ∈ write n, isDigit c = true := by
  induction n using write.induct with
  | case1 n hlt =>
    rw [write, if_pos hlt]
    exact List.forall_mem_singleton.mpr (isDigit_ofValue hlt)
  | case2 n hge ih =>
    rw [write, if_neg hge]
    have hlast : n % 10 < 10 := Nat.mod_lt n (by decide)
    exact List.forall_mem_append.mpr ⟨ih, List.forall_mem_singleton.mpr (isDigit_ofValue hlast)⟩

theorem write_ne_nil (n : Nat) : write n ≠ [] := by
  rw [write]
  split
  · exact List.cons_ne_nil _ _
  · exact List.append_ne_nil_of_right_ne_nil _ (List.cons_ne_nil _ _)

theorem read_write (n : Nat) : read 0 (write n) = n := by
  induction n using write.induct with
  | case1 n hlt =>
    rw [write, if_pos hlt, read_zero_cons]
    exact value_ofValue hlt
  | case2 n hge ih =>
    rw [write, if_neg hge, read_append_singleton, ih, value_ofValue (Nat.mod_lt n (by decide))]
    exact Nat.div_add_mod n 10

/-- What is written starts with a digit, goes on in digits, and is read back. -/
theorem exists_write (n : Nat) : ∃ d ds, write n = d :: ds ∧ isDigit d = true ∧
    (∀ c ∈ ds, isDigit c = true) ∧ read 0 (d :: ds) = n := by
  have hvalue := read_write n
  have hdigits := isDigit_write n
  obtain ⟨d, ds, hwrite⟩ := List.exists_cons_of_ne_nil (write_ne_nil n)
  rw [hwrite] at hvalue hdigits
  obtain ⟨hd, hds⟩ := List.forall_mem_cons.mp hdigits
  exact ⟨d, ds, hwrite, hd, hds, hvalue⟩

theorem length_padded (width n : Nat) : (padded width n).length = width := by
  induction width generalizing n with
  | zero => rfl
  | succ width ih => rw [padded, List.length_append, ih, List.length_singleton]

theorem isDigit_padded (width n : Nat) : ∀ c ∈ padded width n, isDigit c = true := by
  induction width generalizing n with
  | zero => exact List.forall_mem_nil _
  | succ width ih =>
    have hlast : n % 10 < 10 := Nat.mod_lt n (by decide)
    exact List.forall_mem_append.mpr ⟨ih _, List.forall_mem_singleton.mpr (isDigit_ofValue hlast)⟩

theorem read_padded (h : n < 10 ^ width) : read 0 (padded width n) = n := by
  induction width generalizing n with
  | zero =>
    have hzero : n = 0 := Nat.lt_one_iff.mp h
    rw [hzero]
    rfl
  | succ width ih =>
    have hfront : n / 10 < 10 ^ width := by
      rw [Nat.pow_succ] at h
      exact Nat.div_lt_of_lt_mul (by rwa [Nat.mul_comm])
    rw [padded, read_append_singleton, ih hfront, value_ofValue (Nat.mod_lt n (by decide))]
    exact Nat.div_add_mod n 10

end Writing
end RowGate.Digits
