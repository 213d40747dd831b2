import RowGate.Proofs.Outcome
import RowGate.Text.Utf8

/-! # Texts through their octets

The octets of a text are read as that text again. The reader goes by the size of a character,
as the writer does: there is one step for each of the four sizes, and the tests of the reader
are met by what the writer puts there. So two texts with the same octets are one text. The tests
let nothing else pass, so octets are read exactly where they are those of a text.
-/
namespace RowGate.Utf8

theorem encode_cons (c : Char) (s : List Char) :
    encode (c :: s) = String.utf8EncodeChar c ++ encode s := List.flatMap_cons ..

theorem encode_append (s t : List Char) : encode (s ++ t) = encode s ++ encode t :=
  List.flatMap_append

theorem length_le_length_encode (s : List Char) : s.length ≤ (encode s).length := by
  induction s with
  | nil => exact Nat.le_refl _
  | cons c s ih =>
    have hc := c.utf8Size_pos
    rw [encode_cons, List.length_append, String.length_utf8EncodeChar, List.length_cons]
    omega

theorem toNat_ofNat_of_lt {n : Nat} (h : n < 256) : (UInt8.ofNat n).toNat = n := by
  rw [UInt8.toNat_ofNat', Nat.mod_eq_of_lt h]

section Steps
variable (i : Nat) {a b c d : UInt8} (rest : Octets)

theorem decodeFrom_one (h : a < 0x80) :
    decodeFrom i (a :: rest) = (decodeFrom (i + 1) rest).map (Char.ofNat a.toNat :: ·) := by
  rw [decodeFrom.eq_def]
  simp only [h, if_true]

theorem decodeFrom_two (ha : 0xC2 ≤ a) (ha' : a < 0xE0) (hb : isTail b = true) :
    decodeFrom i (a :: b :: rest) = (decodeFrom (i + 2) rest).map (join2 a b :: ·) := by
  have h1 : ¬ a < 0x80 := UInt8.not_lt.mpr (UInt8.le_trans (by decide) ha)
  rw [decodeFrom.eq_def]
  simp only [h1, UInt8.not_lt.mpr ha, ha', hb, if_true, if_false]

theorem decodeFrom_three (ha : 0xE0 ≤ a) (ha' : a < 0xF0) (hb : second3 a b = true)
    (hc : isTail c = true) :
    decodeFrom i (a :: b :: c :: rest) = (decodeFrom (i + 3) rest).map (join3 a b c :: ·) := by
  have h1 : ¬ a < 0x80 := UInt8.not_lt.mpr (UInt8.le_trans (by decide) ha)
  have h2 : ¬ a < 0xC2 := UInt8.not_lt.mpr (UInt8.le_trans (by decide) ha)
  rw [decodeFrom.eq_def]
  simp only [h1, h2, UInt8.not_lt.mpr ha, ha', hb, hc, if_true, if_false]

theorem decodeFrom_four (ha : 0xF0 ≤ a) (ha' : a < 0xF5) (hb : second4 a b = true)
    (hc : isTail c = true) (hd : isTail d = true) :
    decodeFrom i (a :: b :: c :: d :: rest) =
      (decodeFrom (i + 4) rest).map (join4 a b c d :: ·) := by
  have h1 : ¬ a < 0x80 := UInt8.not_lt.mpr (UInt8.le_trans (by decide) ha)
  have h2 : ¬ a < 0xC2 := UInt8.not_lt.mpr (UInt8.le_trans (by decide) ha)
  have h3 : ¬ a < 0xE0 := UInt8.not_lt.mpr (UInt8.le_trans (by decide) ha)
  rw [decodeFrom.eq_def]
  simp only [h1, h2, h3, UInt8.not_lt.mpr ha, ha', hb, hc, hd, if_true, if_false]

end Steps

/-- Tests on octets as tests on their numbers. -/
theorem isTail_iff (b : UInt8) : isTail b = true ↔ 0x80 ≤ b.toNat ∧ b.toNat ≤ 0xBF := by
  simp [isTail, UInt8.le_iff_toNat_le]

theorem second3_iff (a b : UInt8) : second3 a b = true ↔
    (if a.toNat = 0xE0 then 0xA0 ≤ b.toNat ∧ b.toNat ≤ 0xBF
      else if a.toNat = 0xED then 0x80 ≤ b.toNat ∧ b.toNat ≤ 0x9F
      else 0x80 ≤ b.toNat ∧ b.toNat ≤ 0xBF) := by
  simp only [second3, ← UInt8.toNat_inj]
  split
  · simp_all [UInt8.le_iff_toNat_le]
  · split <;> simp_all [isTail_iff, UInt8.le_iff_toNat_le]

theorem second4_iff (a b : UInt8) : second4 a b = true ↔
    (if a.toNat = 0xF0 then 0x90 ≤ b.toNat ∧ b.toNat ≤ 0xBF
      else if a.toNat = 0xF4 then 0x80 ≤ b.toNat ∧ b.toNat ≤ 0x8F
      else 0x80 ≤ b.toNat ∧ b.toNat ≤ 0xBF) := by
  simp only [second4, ← UInt8.toNat_inj]
  split
  · simp_all [UInt8.le_iff_toNat_le]
  · split <;> simp_all [isTail_iff, UInt8.le_iff_toNat_le]

theorem toNat_tail (n : Nat) : (UInt8.ofNat (n % 0x40 + 0x80)).toNat = n % 0x40 + 0x80 :=
  toNat_ofNat_of_lt (by omega)

theorem isTail_ofNat (n : Nat) : isTail (UInt8.ofNat (n % 0x40 + 0x80)) = true := by
  rw [isTail_iff, toNat_tail]
  omega

theorem toNat_lt_or (c : Char) : c.toNat < 0xD800 ∨ 0xDFFF < c.toNat ∧ c.toNat < 0x110000 := c.valid

theorem encodeChar_eq (c : Char) : String.utf8EncodeChar c =
    if c.toNat ≤ 0x7F then [UInt8.ofNat c.toNat]
    else if c.toNat ≤ 0x7FF then
      [UInt8.ofNat (c.toNat / 64 % 0x20 + 0xC0), UInt8.ofNat (c.toNat % 0x40 + 0x80)]
    else if c.toNat ≤ 0xFFFF then
      [UInt8.ofNat (c.toNat / 4096 % 0x10 + 0xE0), UInt8.ofNat (c.toNat / 64 % 0x40 + 0x80),
        UInt8.ofNat (c.toNat % 0x40 + 0x80)]
    else
      [UInt8.ofNat (c.toNat / 262144 % 0x08 + 0xF0), UInt8.ofNat (c.toNat / 4096 % 0x40 + 0x80),
        UInt8.ofNat (c.toNat / 64 % 0x40 + 0x80), UInt8.ofNat (c.toNat % 0x40 + 0x80)] := rfl

theorem ofNat_eq_of_toNat {n : Nat} {c : Char} (h : n = c.toNat) : Char.ofNat n = c :=
  h ▸ Char.ofNat_toNat c

section Sizes
variable (i : Nat) {c : Char} (rest : Octets)

theorem decodeFrom_size_one (h : c.toNat ≤ 0x7F) :
    decodeFrom i (UInt8.ofNat c.toNat :: rest) = (decodeFrom (i + 1) rest).map (c :: ·) := by
  have ha : (UInt8.ofNat c.toNat).toNat = c.toNat := toNat_ofNat_of_lt (by omega)
  refine (decodeFrom_one i rest ?_).trans ?_
  · rw [UInt8.lt_iff_toNat_lt, ha]
    exact Nat.lt_succ_of_le h
  · rw [ha, ofNat_eq_of_toNat rfl]

theorem decodeFrom_size_two (h : 0x7F < c.toNat) (h' : c.toNat ≤ 0x7FF) :
    decodeFrom i (UInt8.ofNat (c.toNat / 64 % 0x20 + 0xC0) ::
        UInt8.ofNat (c.toNat % 0x40 + 0x80) :: rest) =
      (decodeFrom (i + 2) rest).map (c :: ·) := by
  have ha : (UInt8.ofNat (c.toNat / 64 % 0x20 + 0xC0)).toNat = c.toNat / 64 + 0xC0 := by
    rw [toNat_ofNat_of_lt (by omega)]
    omega
  have hj : join2 (UInt8.ofNat (c.toNat / 64 % 0x20 + 0xC0))
      (UInt8.ofNat (c.toNat % 0x40 + 0x80)) = c := by
    rw [join2, ha, toNat_tail]
    exact ofNat_eq_of_toNat (by omega)
  refine (decodeFrom_two i rest ?_ ?_ (isTail_ofNat _)).trans (by rw [hj])
  · rw [UInt8.le_iff_toNat_le, ha, show (0xC2 : UInt8).toNat = 0xC2 from rfl]
    omega
  · rw [UInt8.lt_iff_toNat_lt, ha, show (0xE0 : UInt8).toNat = 0xE0 from rfl]
    omega

/-- The second octet steers clear of the surrogates, as the character does. -/
theorem decodeFrom_size_three (h : 0x7FF < c.toNat) (h' : c.toNat ≤ 0xFFFF) :
    decodeFrom i (UInt8.ofNat (c.toNat / 4096 % 0x10 + 0xE0) ::
        UInt8.ofNat (c.toNat / 64 % 0x40 + 0x80) :: UInt8.ofNat (c.toNat % 0x40 + 0x80) :: rest) =
      (decodeFrom (i + 3) rest).map (c :: ·) := by
  have hv := toNat_lt_or c
  have ha : (UInt8.ofNat (c.toNat / 4096 % 0x10 + 0xE0)).toNat = c.toNat / 4096 + 0xE0 := by
    rw [toNat_ofNat_of_lt (by omega)]
    omega
  have hb := toNat_tail (c.toNat / 64)
  have hj : join3 (UInt8.ofNat (c.toNat / 4096 % 0x10 + 0xE0))
      (UInt8.ofNat (c.toNat / 64 % 0x40 + 0x80)) (UInt8.ofNat (c.toNat % 0x40 + 0x80)) = c := by
    rw [join3, ha, hb, toNat_tail]
    exact ofNat_eq_of_toNat (by omega)
  refine (decodeFrom_three i rest ?_ ?_ ?_ (isTail_ofNat _)).trans (by rw [hj])
  · rw [UInt8.le_iff_toNat_le, ha]
    exact Nat.le_add_left _ _
  · rw [UInt8.lt_iff_toNat_lt, ha, show (0xF0 : UInt8).toNat = 0xF0 from rfl]
    omega
  · rw [second3_iff, ha, hb]
    split
    · omega
    · split <;> omega

theorem decodeFrom_size_four (h : 0xFFFF < c.toNat) :
    decodeFrom i (UInt8.ofNat (c.toNat / 262144 % 0x08 + 0xF0) ::
        UInt8.ofNat (c.toNat / 4096 % 0x40 + 0x80) :: UInt8.ofNat (c.toNat / 64 % 0x40 + 0x80) ::
        UInt8.ofNat (c.toNat % 0x40 + 0x80) :: rest) =
      (decodeFrom (i + 4) rest).map (c :: ·) := by
  have hv := toNat_lt_or c
  have ha : (UInt8.ofNat (c.toNat / 262144 % 0x08 + 0xF0)).toNat = c.toNat / 262144 + 0xF0 := by
    rw [toNat_ofNat_of_lt (by omega)]
    omega
  have hb := toNat_tail (c.toNat / 4096)
  have hj : join4 (UInt8.ofNat (c.toNat / 262144 % 0x08 + 0xF0))
      (UInt8.ofNat (c.toNat / 4096 % 0x40 + 0x80)) (UInt8.ofNat (c.toNat / 64 % 0x40 + 0x80))
      (UInt8.ofNat (c.toNat % 0x40 + 0x80)) = c := by
    rw [join4, ha, hb, toNat_tail, toNat_tail]
    exact ofNat_eq_of_toNat (by omega)
  refine (decodeFrom_four i rest ?_ ?_ ?_ (isTail_ofNat _) (isTail_ofNat _)).trans (by rw [hj])
  · rw [UInt8.le_iff_toNat_le, ha]
    exact Nat.le_add_left _ _
  · rw [UInt8.lt_iff_toNat_lt, ha, show (0xF5 : UInt8).toNat = 0xF5 from rfl]
    omega
  · rw [second4_iff, ha, hb]
    split
    · omega
    · split <;> omega

end Sizes

/-- The octets of a character are read as that character, whatever follows. -/
theorem decodeFrom_encodeChar (i : Nat) (c : Char) (rest : Octets) :
    decodeFrom i (String.utf8EncodeChar c ++ rest) =
      (decodeFrom (i + (String.utf8EncodeChar c).length) rest).map (c :: ·) := by
  rw [encodeChar_eq]
  split
  · next h => exact decodeFrom_size_one i rest h
  split
  · next h h' => exact decodeFrom_size_two i rest (Nat.lt_of_not_le h) h'
  split
  · next h h' => exact decodeFrom_size_three i rest (Nat.lt_of_not_le h) h'
  · next h => exact decodeFrom_size_four i rest (Nat.lt_of_not_le h)

theorem decode_encode (s : List Char) : decode (encode s) = .ok s := by
  suffices h : ∀ i, decodeFrom i (encode s) = .ok s from h 0
  induction s with
  | nil => exact fun _ => rfl
  | cons c s ih =>
    intro i
    rw [encode, List.flatMap_cons, decodeFrom_encodeChar]
    change (decodeFrom _ (encode s)).map _ = _
    rw [ih]
    rfl

theorem text_octets (s : String) : text (octets s) = .ok s := by
  rw [text, octets, decode_encode]
  exact congrArg _ String.ofList_toList

theorem octets_injective : Function.Injective octets := by
  intro s t h
  have := text_octets s
  rw [h, text_octets t] at this
  exact (Except.ok.inj this).symm

section Joins
variable {a b c d : UInt8}

theorem toNat_ofNat_of_valid {n : Nat} (h : n < 0xD800 ∨ 0xDFFF < n ∧ n < 0x110000) :
    (Char.ofNat n).toNat = n := by
  rw [Char.ofNat, dif_pos (show n.isValidChar from h)]
  rfl

theorem ofNat_eq_of_toNat_eq {n : Nat} (h : n = a.toNat) : UInt8.ofNat n = a :=
  h ▸ UInt8.ofNat_toNat

theorem encodeChar_one (h : a < 0x80) : String.utf8EncodeChar (Char.ofNat a.toNat) = [a] := by
  have ha : a.toNat < 0x80 := UInt8.lt_iff_toNat_lt.mp h
  rw [encodeChar_eq, toNat_ofNat_of_valid (by omega), if_pos (by omega), UInt8.ofNat_toNat]

theorem encodeChar_join2 (ha : 0xC2 ≤ a) (ha' : a < 0xE0) (hb : isTail b = true) :
    String.utf8EncodeChar (join2 a b) = [a, b] := by
  have ha : 0xC2 ≤ a.toNat := UInt8.le_iff_toNat_le.mp ha
  have ha' : a.toNat < 0xE0 := UInt8.lt_iff_toNat_lt.mp ha'
  rw [isTail_iff] at hb
  rw [encodeChar_eq, join2, toNat_ofNat_of_valid (by omega), if_neg (by omega), if_pos (by omega),
    ofNat_eq_of_toNat_eq (a := a) (by omega), ofNat_eq_of_toNat_eq (a := b) (by omega)]

/-- The limits of the second octet keep out characters that have a shorter form, and surrogates. -/
theorem encodeChar_join3 (ha : 0xE0 ≤ a) (ha' : a < 0xF0) (hb : second3 a b = true)
    (hc : isTail c = true) : String.utf8EncodeChar (join3 a b c) = [a, b, c] := by
  have ha : 0xE0 ≤ a.toNat := UInt8.le_iff_toNat_le.mp ha
  have ha' : a.toNat < 0xF0 := UInt8.lt_iff_toNat_lt.mp ha'
  rw [isTail_iff] at hc
  rw [second3_iff] at hb
  have hb : (0x80 ≤ b.toNat ∧ b.toNat ≤ 0xBF) ∧ (a.toNat = 0xE0 → 0xA0 ≤ b.toNat) ∧
      (a.toNat = 0xED → b.toNat ≤ 0x9F) := by
    split at hb
    · omega
    · split at hb <;> omega
  rw [encodeChar_eq, join3, toNat_ofNat_of_valid (by omega), if_neg (by omega), if_neg (by omega),
    if_pos (by omega), ofNat_eq_of_toNat_eq (a := a) (by omega),
    ofNat_eq_of_toNat_eq (a := b) (by omega), ofNat_eq_of_toNat_eq (a := c) (by omega)]

theorem encodeChar_join4 (ha : 0xF0 ≤ a) (ha' : a < 0xF5) (hb : second4 a b = true)
    (hc : isTail c = true) (hd : isTail d = true) :
    String.utf8EncodeChar (join4 a b c d) = [a, b, c, d] := by
  have ha : 0xF0 ≤ a.toNat := UInt8.le_iff_toNat_le.mp ha
  have ha' : a.toNat < 0xF5 := UInt8.lt_iff_toNat_lt.mp ha'
  rw [isTail_iff] at hc hd
  rw [second4_iff] at hb
  have hb : (0x80 ≤ b.toNat ∧ b.toNat ≤ 0xBF) ∧ (a.toNat = 0xF0 → 0x90 ≤ b.toNat) ∧
      (a.toNat = 0xF4 → b.toNat ≤ 0x8F) := by
    split at hb
    · omega
    · split at hb <;> omega
  rw [encodeChar_eq, join4, toNat_ofNat_of_valid (by omega), if_neg (by omega), if_neg (by omega),
    if_neg (by omega), ofNat_eq_of_toNat_eq (a := a) (by omega),
    ofNat_eq_of_toNat_eq (a := b) (by omega), ofNat_eq_of_toNat_eq (a := c) (by omega),
    ofNat_eq_of_toNat_eq (a := d) (by omega)]

end Joins

theorem encode_of_map {c : Char} {front rest : Octets} {r : Except Fault (List Char)}
    {s : List Char} (h : r.map (c :: ·) = .ok s) (hc : String.utf8EncodeChar c = front)
    (hr : ∀ {s}, r = .ok s → rest = encode s) : front ++ rest = encode s := by
  obtain ⟨s', hs', rfl⟩ := map_eq_ok_iff.mp h
  rw [encode_cons, hc, hr hs']

/-- What is read has the octets that it is read of. -/
theorem eq_encode_of_decodeFrom {i : Nat} {b : Octets} {s : List Char}
    (h : decodeFrom i b = .ok s) : b = encode s := by
  -- Four branches of the reader give a character; all the others are faults.
  fun_induction decodeFrom i b generalizing s with
  | case1 =>
    cases h
    rfl
  | case2 i a rest ha ih => exact encode_of_map h (encodeChar_one ha) ih
  | case5 i a ha₁ ha ha' b rest hb ih =>
    exact encode_of_map h (encodeChar_join2 (UInt8.not_lt.mp ha) ha' hb) ih
  | case9 i a ha₁ ha₂ ha ha' b hb c rest hc ih =>
    exact encode_of_map h (encodeChar_join3 (UInt8.not_lt.mp ha) ha' hb hc) ih
  | case15 i a ha₁ ha₂ ha₃ ha ha' b hb c hc d rest hd ih =>
    exact encode_of_map h (encodeChar_join4 (UInt8.not_lt.mp ha) ha' hb hc hd) ih
  | _ => cases h

theorem decode_eq_ok_iff {b : Octets} {s : List Char} : decode b = .ok s ↔ b = encode s := by
  constructor
  · exact eq_encode_of_decodeFrom
  · rintro rfl
    exact decode_encode s

theorem text_eq_ok_iff {b : Octets} {t : String} : text b = .ok t ↔ b = octets t := by
  constructor
  · intro h
    obtain ⟨s, hs, rfl⟩ := map_eq_ok_iff.mp h
    rw [octets, String.toList_ofList]
    exact decode_eq_ok_iff.mp hs
  · rintro rfl
    exact text_octets t

end RowGate.Utf8
