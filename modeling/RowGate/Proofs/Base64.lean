import RowGate.Proofs.Utf8
import RowGate.Text.Base64
import RowGate.Text.Blank

/-! # Base64 reads just what it writes

The reader accepts a sequence of octets exactly when it is the written form of what it gives.
Going out, whole groups of three octets become four symbols and the last group is padded; coming
back, the last group is cut into its symbols and the padding behind them, and the bits that its
last symbol leaves over are zero. So a written form is canonical: no two accepted texts stand for
the same octets.
-/
namespace RowGate.Base64

def code (n : Nat) : UInt8 := UInt8.ofNat (symbol n).toNat

theorem symbol_facts : ∀ n < 64, (symbol n).toNat < 0x80 ∧ Text.isBlank (symbol n) = false ∧
    value? (code n) = some n ∧ code n ≠ pad := by
  decide

theorem code_facts : ∀ i < 256, ∀ n, value? (UInt8.ofNat i) = some n →
    n < 64 ∧ code n = UInt8.ofNat i := by
  have table : ∀ i < 256, ∀ n ∈ value? (UInt8.ofNat i), n < 64 ∧ code n = UInt8.ofNat i := by
    decide +kernel
  exact table

theorem encodeChar_symbol {n : Nat} (h : n < 64) : String.utf8EncodeChar (symbol n) = [code n] := by
  rw [Utf8.encodeChar_eq, if_pos (Nat.le_of_lt_succ (symbol_facts n h).1)]
  rfl

theorem value?_code {n : Nat} (h : n < 64) : value? (code n) = some n := (symbol_facts n h).2.2.1

theorem code_ne_pad {n : Nat} (h : n < 64) : code n ≠ pad := (symbol_facts n h).2.2.2

theorem code_of_value? {b : UInt8} {n : Nat} (h : value? b = some n) : n < 64 ∧ code n = b := by
  have hb := code_facts b.toNat b.toNat_lt n
  rw [UInt8.ofNat_toNat] at hb
  exact hb h

theorem value_code {n : Nat} (offset : Nat) (h : n < 64) : value offset (code n) = .ok n := by
  rw [value, value?_code h]

theorem value_eq_ok {offset n : Nat} {b : UInt8} (h : value offset b = .ok n) :
    value? b = some n := by
  unfold value at h
  split at h
  · next v hv => rw [hv, Except.ok.inj h]
  · cases h

def written (b : Octets) : Octets := Utf8.encode (encode b)

section Written
variable (a b c : UInt8) (rest : Octets)

theorem written_one : written [a] = [code (a.toNat / 4), code (a.toNat % 4 * 16), pad, pad] := by
  have ha := a.toNat_lt
  simp only [written, encode, Utf8.encode_cons]
  rw [encodeChar_symbol (by omega), encodeChar_symbol (by omega)]
  rfl

theorem written_two : written [a, b] = [code (a.toNat / 4),
    code (a.toNat % 4 * 16 + b.toNat / 16), code (b.toNat % 16 * 4), pad] := by
  have ha := a.toNat_lt
  have hb := b.toNat_lt
  simp only [written, encode, Utf8.encode_cons]
  rw [encodeChar_symbol (by omega), encodeChar_symbol (by omega), encodeChar_symbol (by omega)]
  rfl

theorem written_three : written (a :: b :: c :: rest) = code (a.toNat / 4) ::
    code (a.toNat % 4 * 16 + b.toNat / 16) :: code (b.toNat % 16 * 4 + c.toNat / 64) ::
    code (c.toNat % 64) :: written rest := by
  have ha := a.toNat_lt
  have hb := b.toNat_lt
  have hc := c.toNat_lt
  simp only [written, encode, Utf8.encode_cons]
  rw [encodeChar_symbol (by omega), encodeChar_symbol (by omega), encodeChar_symbol (by omega),
    encodeChar_symbol (by omega)]
  rfl

end Written

theorem octet_eq {n : Nat} {b : UInt8} (h : n = b.toNat) : UInt8.ofNat n = b := by
  rw [h, UInt8.ofNat_toNat]

theorem triple_symbols (a b c : UInt8) :
    triple (a.toNat / 4) (a.toNat % 4 * 16 + b.toNat / 16) (b.toNat % 16 * 4 + c.toNat / 64)
      (c.toNat % 64) = [a, b, c] := by
  have ha := a.toNat_lt
  have hb := b.toNat_lt
  have hc := c.toNat_lt
  rw [triple, octet_eq (b := a) (by omega), octet_eq (b := b) (by omega),
    octet_eq (b := c) (by omega)]

/-- Symbols and the padding behind them are told apart. -/
theorem lastSymbols_code (start index : Nat) {n : Nat} (h : n < 64) (rest : Octets) :
    lastSymbols start index none (code n :: rest) = (do
      let (symbols, pads) ← lastSymbols start (index + 1) none rest
      .ok ((code n, n) :: symbols, pads)) := by
  rw [lastSymbols, if_neg (code_ne_pad h), value_code _ h]
  rfl

theorem lastGroup_one (start : Nat) {p q : Nat} (hp : p < 64) (hq : q < 64) (h : q % 16 = 0) :
    lastGroup start [code p, code q, pad, pad] = .ok [UInt8.ofNat (p * 4 + q / 16)] := by
  rw [lastGroup, lastSymbols_code _ _ hp, lastSymbols_code _ _ hq]
  simp [lastSymbols, bind, Except.bind, h]

theorem lastGroup_two (start : Nat) {p q r : Nat} (hp : p < 64) (hq : q < 64) (hr : r < 64)
    (h : r % 4 = 0) : lastGroup start [code p, code q, code r, pad] =
      .ok [UInt8.ofNat (p * 4 + q / 16), UInt8.ofNat (q % 16 * 16 + r / 4)] := by
  rw [lastGroup, lastSymbols_code _ _ hp, lastSymbols_code _ _ hq, lastSymbols_code _ _ hr]
  simp [lastSymbols, bind, Except.bind, h]

theorem lastGroup_three (start : Nat) {p q r s : Nat} (hp : p < 64) (hq : q < 64) (hr : r < 64)
    (hs : s < 64) : lastGroup start [code p, code q, code r, code s] = .ok (triple p q r s) := by
  rw [lastGroup, lastSymbols_code _ _ hp, lastSymbols_code _ _ hq, lastSymbols_code _ _ hr,
    lastSymbols_code _ _ hs]
  simp [lastSymbols, bind, Except.bind]

theorem groups_code (offset : Nat) {p q r s : Nat} (hp : p < 64) (hq : q < 64) (hr : r < 64)
    (hs : s < 64) (rest : Octets) :
    groups offset (code p :: code q :: code r :: code s :: rest) =
      (groups (offset + 4) rest).map (triple p q r s ++ ·) := by
  cases rest with
  | nil => exact (lastGroup_three offset hp hq hr hs).trans rfl
  | cons e rest =>
    rw [groups, value_code _ hp, value_code _ hq, value_code _ hr, value_code _ hs]
    cases groups (offset + 4) (e :: rest) <;> rfl

theorem groups_written (b : Octets) (offset : Nat) : groups offset (written b) = .ok b := by
  fun_induction encode b generalizing offset with
  | case1 => rfl
  | case2 a =>
    have ha := a.toNat_lt
    rw [written_one]
    refine (lastGroup_one offset (by omega) (by omega) (by omega)).trans ?_
    rw [octet_eq (b := a) (by omega)]
  | case3 a b =>
    have ha := a.toNat_lt
    have hb := b.toNat_lt
    rw [written_two]
    refine (lastGroup_two offset (by omega) (by omega) (by omega) (by omega)).trans ?_
    rw [octet_eq (b := a) (by omega), octet_eq (b := b) (by omega)]
  | case4 a b c rest ih =>
    have ha := a.toNat_lt
    have hb := b.toNat_lt
    have hc := c.toNat_lt
    rw [written_three, groups_code _ (by omega) (by omega) (by omega) (by omega), ih,
      triple_symbols]
    rfl

theorem length_written (b : Octets) : (written b).length = 4 * ((b.length + 2) / 3) := by
  fun_induction encode b with
  | case1 => rfl
  | case2 a => rw [written_one]; simp
  | case3 a b => rw [written_two]; simp
  | case4 a b c rest ih =>
    rw [written_three]
    simp only [List.length_cons, ih]
    omega

theorem decode_written (b : Octets) : decode (written b) = .ok b := by
  have hl := length_written b
  unfold decode
  split
  · next h =>
    have hb := groups_written b 0
    rw [List.getLast?_eq_none_iff.mp h] at hb
    exact hb
  · next o h =>
    rw [if_neg (by omega)]
    exact groups_written b 0

/-- The symbols of a last group and the padding behind them make up the group. -/
theorem eq_of_lastSymbols {start index : Nat} {firstPad : Option Nat} {group : Octets}
    {symbols : List (UInt8 × Nat)} {pads : Nat}
    (h : lastSymbols start index firstPad group = .ok (symbols, pads)) :
    group = symbols.map Prod.fst ++ List.replicate pads pad ∧
      (∀ s ∈ symbols, value? s.1 = some s.2) ∧ (firstPad.isSome → symbols = []) := by
  fun_induction lastSymbols start index firstPad group generalizing symbols pads with
  | case1 =>
    cases h
    simp
  | case2 => cases h
  | case3 index firstPad rest hindex ih =>
    simp only [bind, Except.bind] at h
    split at h
    · cases h
    · next p hp =>
      obtain ⟨ss, n⟩ := p
      cases h
      obtain ⟨hrest, hvalues, hnone⟩ := ih hp
      have hss : ss = [] := hnone (by cases firstPad <;> rfl)
      subst hss
      exact ⟨by rw [hrest]; rfl, by simp, fun _ => rfl⟩
  | case4 => cases h
  | case5 index b rest hb ih =>
    simp only [bind, Except.bind] at h
    split at h
    · cases h
    · next v hv =>
      split at h
      · cases h
      · next p hp =>
        obtain ⟨ss, n⟩ := p
        cases h
        obtain ⟨hrest, hvalues, hnone⟩ := ih hp
        refine ⟨by rw [hrest]; rfl, ?_, by simp⟩
        intro s hs
        rcases List.mem_cons.mp hs with rfl | hs
        · exact value_eq_ok hv
        · exact hvalues s hs

theorem toNat_octet {n : Nat} (h : n < 256) : (UInt8.ofNat n).toNat = n :=
  Utf8.toNat_ofNat_of_lt h

theorem written_of_one {p q : Nat} (hp : p < 64) (hq : q < 64) (h : q % 16 = 0) :
    written [UInt8.ofNat (p * 4 + q / 16)] = [code p, code q, pad, pad] := by
  rw [written_one, toNat_octet (by omega), show (p * 4 + q / 16) / 4 = p by omega,
    show (p * 4 + q / 16) % 4 * 16 = q by omega]

theorem written_of_two {p q r : Nat} (hp : p < 64) (hq : q < 64) (hr : r < 64) (h : r % 4 = 0) :
    written [UInt8.ofNat (p * 4 + q / 16), UInt8.ofNat (q % 16 * 16 + r / 4)] =
      [code p, code q, code r, pad] := by
  rw [written_two, toNat_octet (by omega), toNat_octet (by omega),
    show (p * 4 + q / 16) / 4 = p by omega,
    show (p * 4 + q / 16) % 4 * 16 + (q % 16 * 16 + r / 4) / 16 = q by omega,
    show (q % 16 * 16 + r / 4) % 16 * 4 = r by omega]

theorem written_of_triple {p q r s : Nat} (hp : p < 64) (hq : q < 64) (hr : r < 64) (hs : s < 64)
    (rest : Octets) :
    written (triple p q r s ++ rest) = code p :: code q :: code r :: code s :: written rest := by
  change written (_ :: _ :: _ :: rest) = _
  rw [written_three, toNat_octet (by omega), toNat_octet (by omega), toNat_octet (by omega),
    show (p * 4 + q / 16) / 4 = p by omega,
    show (p * 4 + q / 16) % 4 * 16 + (q % 16 * 16 + r / 4) / 16 = q by omega,
    show (q % 16 * 16 + r / 4) % 16 * 4 + (r % 4 * 64 + s) / 64 = r by omega,
    show (r % 4 * 64 + s) % 64 = s by omega]

/-- A last group of at most four octets is read only if it is what is written for its octets. -/
theorem eq_written_of_lastGroup {start : Nat} {group b : Octets} (hlen : group.length ≤ 4)
    (h : lastGroup start group = .ok b) : group = written b := by
  unfold lastGroup at h
  cases hl : lastSymbols start 0 none group with
  | error f => rw [hl] at h; cases h
  | ok p =>
    obtain ⟨symbols, pads⟩ := p
    obtain ⟨rfl, hvalues, -⟩ := eq_of_lastSymbols hl
    rw [hl] at h
    simp only [bind, Except.bind] at h
    have known : ∀ s ∈ symbols, s.2 < 64 ∧ code s.2 = s.1 :=
      fun s hs => code_of_value? (hvalues s hs)
    have bound : symbols.length + pads ≤ 4 := by simpa using hlen
    rcases symbols with _ | ⟨⟨a, p⟩, _ | ⟨⟨c, q⟩, _ | ⟨⟨d, r⟩, _ | ⟨⟨e, s⟩, more⟩⟩⟩⟩
    · -- No symbol: nothing is read, and nothing stands there.
      dsimp only at h
      split at h
      · next he =>
        cases h
        exact List.isEmpty_iff.mp he
      · cases h
    · cases h
    · -- Two symbols and two pads for one octet.
      obtain ⟨hp, ha⟩ := known (a, p) (by simp)
      obtain ⟨hq, hc⟩ := known (c, q) (by simp)
      dsimp only at hp ha hq hc h
      split at h
      · cases h
      split at h
      · cases h
      cases h
      have hpads : pads = 2 := by simp at bound; omega
      rw [written_of_one hp hq (by omega), ha, hc, hpads]
      rfl
    · -- Three symbols and a pad for two octets.
      obtain ⟨hp, ha⟩ := known (a, p) (by simp)
      obtain ⟨hq, hc⟩ := known (c, q) (by simp)
      obtain ⟨hr, hd⟩ := known (d, r) (by simp)
      dsimp only at hp ha hq hc hr hd h
      split at h
      · cases h
      split at h
      · cases h
      cases h
      have hpads : pads = 1 := by simp at bound; omega
      rw [written_of_two hp hq hr (by omega), ha, hc, hd, hpads]
      rfl
    · -- Four symbols for three octets, and there is no room for more.
      obtain ⟨hp, ha⟩ := known (a, p) (by simp)
      obtain ⟨hq, hc⟩ := known (c, q) (by simp)
      obtain ⟨hr, hd⟩ := known (d, r) (by simp)
      obtain ⟨hs, he⟩ := known (e, s) (by simp)
      dsimp only at hp ha hq hc hr hd hs he
      cases h
      obtain ⟨hmore, hpads⟩ : more = [] ∧ pads = 0 := by
        rw [← List.length_eq_zero_iff]
        simp at bound
        omega
      rw [← List.append_nil (triple p q r s), written_of_triple hp hq hr hs, ha, hc, hd, he,
        hmore, hpads]
      rfl

theorem eq_written_of_groups {s b : Octets} {offset : Nat} (h : groups offset s = .ok b) :
    s = written b := by
  fun_induction groups offset s generalizing b with
  | case1 offset a c d e f rest ih =>
    simp only [bind, Except.bind] at h
    split at h
    · cases h
    next p hp =>
    split at h
    · cases h
    next q hq =>
    split at h
    · cases h
    next r hr =>
    split at h
    · cases h
    next s hs =>
    split at h
    · cases h
    next more hmore =>
    cases h
    obtain ⟨hp, ha⟩ := code_of_value? (value_eq_ok hp)
    obtain ⟨hq, hc⟩ := code_of_value? (value_eq_ok hq)
    obtain ⟨hr, hd⟩ := code_of_value? (value_eq_ok hr)
    obtain ⟨hs, he⟩ := code_of_value? (value_eq_ok hs)
    rw [written_of_triple hp hq hr hs, ← ih hmore, ha, hc, hd, he]
  | case2 offset last hlast =>
    refine eq_written_of_lastGroup ?_ h
    rcases last with _ | ⟨a, _ | ⟨b, _ | ⟨c, _ | ⟨d, _ | ⟨e, rest⟩⟩⟩⟩⟩
    · simp
    · simp
    · simp
    · simp
    · simp
    · exact absurd rfl (hlast a b c d e rest)

/-- The reader accepts a sequence of octets exactly when it is the written form of what it gives. -/
theorem decode_eq_ok_iff {s b : Octets} : decode s = .ok b ↔ s = written b := by
  constructor
  · intro h
    unfold decode at h
    split at h
    · next hs =>
      cases h
      exact List.getLast?_eq_none_iff.mp hs
    · split at h
      · cases h
      · exact eq_written_of_groups h
  · rintro rfl
    exact decode_written b

theorem decode_octets_eq_ok_iff {t : String} {b : Octets} :
    decode (Utf8.octets t) = .ok b ↔ t = String.ofList (encode b) := by
  have hw : written b = Utf8.octets (String.ofList (encode b)) := by
    rw [Utf8.octets, String.toList_ofList, written]
  rw [decode_eq_ok_iff, hw]
  exact ⟨fun h => Utf8.octets_injective h, fun h => congrArg _ h⟩

end RowGate.Base64
