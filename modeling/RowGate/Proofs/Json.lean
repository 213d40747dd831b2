import RowGate.Json.Reader
import RowGate.Proofs.Outcome
import RowGate.Proofs.Utf8

/-! # Scanning what was written

The words of a written document are scanned back: a string in quotes gives the text that was
escaped, the digits of a natural that fits 64 bits give that natural, and what follows a word is
left untouched. An octet of a character beyond ASCII is neither a quote nor a backslash nor a
control, so the scanner of strings passes over it one octet at a time.
-/
namespace RowGate

theorem toNat_letter (b : UInt8) : (letter b).toNat = b.toNat := by
  have hb := b.toNat_lt
  rw [letter, Char.ofNat, dif_pos (Or.inl (by omega))]
  rfl

namespace Json

section Steps
variable (rest : Octets)

theorem stringOctets_quote : stringOctets (0x22 :: rest) = .ok ([], rest) := by
  rw [stringOctets.eq_def]
  rfl

theorem stringOctets_short {e x : UInt8} (hu : letter e ≠ 'u') (h : shortEscape e = some x) :
    stringOctets (0x5C :: e :: rest) = precede [x] (stringOctets rest) := by
  rw [stringOctets.eq_def]
  simp only [h, if_neg hu]
  rfl

theorem stringOctets_numbered {a b c d : UInt8} {n : Nat} (h : hex4 a b c d = some n)
    (hl : isLowSurrogate n = false) (hh : isHighSurrogate n = false) :
    stringOctets (0x5C :: 0x75 :: a :: b :: c :: d :: rest) =
      precede (charOctets n) (stringOctets rest) := by
  rw [stringOctets.eq_def]
  simp only [h, hl, hh]
  rfl

theorem stringOctets_plain {b : UInt8} (hq : b.toNat ≠ 0x22) (hb : b.toNat ≠ 0x5C)
    (hc : 0x20 ≤ b.toNat) : stringOctets (b :: rest) = precede [b] (stringOctets rest) := by
  have h1 : letter b ≠ '"' := fun h => hq (by rw [← toNat_letter, h]; rfl)
  have h2 : letter b ≠ '\\' := fun h => hb (by rw [← toNat_letter, h]; rfl)
  have h3 : ¬ b < 0x20 := by
    rw [UInt8.lt_iff_toNat_lt]
    exact Nat.not_lt.mpr hc
  rw [stringOctets.eq_def]
  simp only [h1, h2, h3, if_false]

end Steps

theorem precede_precede (front more : Octets) (r : Except Fault (Octets × Octets)) :
    precede front (precede more r) = precede (front ++ more) r := by
  cases r with
  | error f => rfl
  | ok p => simp [precede, Except.map]

theorem stringOctets_plains {s : Octets} (rest : Octets)
    (h : ∀ b ∈ s, b.toNat ≠ 0x22 ∧ b.toNat ≠ 0x5C ∧ 0x20 ≤ b.toNat) :
    stringOctets (s ++ rest) = precede s (stringOctets rest) := by
  induction s with
  | nil =>
    cases hr : stringOctets rest with
    | error f => exact hr
    | ok p => exact hr
  | cons b s ih =>
    obtain ⟨hq, hb, hc⟩ := h b List.mem_cons_self
    rw [List.cons_append, stringOctets_plain _ hq hb hc,
      ih fun x hx => h x (List.mem_cons_of_mem _ hx), precede_precede]
    rfl

/-- The one octet of a character of ASCII is its number; others have octets beyond ASCII only. -/
theorem toNat_of_mem_encodeChar {c : Char} {b : UInt8} (h : b ∈ String.utf8EncodeChar c) :
    b.toNat = c.toNat ∨ 0x80 ≤ b.toNat := by
  have hv := Utf8.toNat_lt_or c
  rw [Utf8.encodeChar_eq] at h
  split at h
  · rw [List.mem_singleton.mp h, Utf8.toNat_ofNat_of_lt (by omega)]
    exact Or.inl rfl
  · right
    split at h
    · simp only [List.mem_cons, List.not_mem_nil, or_false] at h
      rcases h with rfl | rfl <;> rw [Utf8.toNat_ofNat_of_lt (by omega)] <;> omega
    split at h
    · simp only [List.mem_cons, List.not_mem_nil, or_false] at h
      rcases h with rfl | rfl | rfl <;> rw [Utf8.toNat_ofNat_of_lt (by omega)] <;> omega
    · simp only [List.mem_cons, List.not_mem_nil, or_false] at h
      rcases h with rfl | rfl | rfl | rfl <;> rw [Utf8.toNat_ofNat_of_lt (by omega)] <;> omega

/-- A control below the space is written by number. -/
theorem hex4_padded {n : Nat} (h : n < 32) : ∃ a b c d,
    Utf8.encode (Text.hexPadded 4 n) = [a, b, c, d] ∧ hex4 a b c d = some n := by
  have table : ∀ n < 32, Utf8.encode (Text.hexPadded 4 n) = [0x30, 0x30,
      UInt8.ofNat (Text.hexDigit (n / 16)).toNat, UInt8.ofNat (Text.hexDigit (n % 16)).toNat] ∧
      hex4 0x30 0x30 (UInt8.ofNat (Text.hexDigit (n / 16)).toNat)
        (UInt8.ofNat (Text.hexDigit (n % 16)).toNat) = some n := by
    decide
  exact ⟨_, _, _, _, table n h⟩

theorem stringOctets_escapeChar (c : Char) (rest : Octets) :
    stringOctets (Utf8.encode (escapeChar c) ++ rest) =
      precede (String.utf8EncodeChar c) (stringOctets rest) := by
  have eq_of_toNat : ∀ d : Char, c.toNat = d.toNat → c = d := fun d h => by
    rw [← Char.ofNat_toNat c, h, Char.ofNat_toNat]
  unfold escapeChar
  split
  · next h => subst h; exact stringOctets_short rest (by decide) (by decide)
  split
  · next h => subst h; exact stringOctets_short rest (by decide) (by decide)
  split
  · next h => subst h; exact stringOctets_short rest (by decide) (by decide)
  split
  · next h => subst h; exact stringOctets_short rest (by decide) (by decide)
  split
  · next h => subst h; exact stringOctets_short rest (by decide) (by decide)
  split
  · next h =>
    rw [eq_of_toNat (Char.ofNat 8) h]
    exact stringOctets_short rest (by decide) (by decide)
  split
  · next h =>
    rw [eq_of_toNat (Char.ofNat 12) h]
    exact stringOctets_short rest (by decide) (by decide)
  split
  · next h =>
    obtain ⟨a, b, d, e, hw, hn⟩ := hex4_padded h
    have hl : isLowSurrogate c.toNat = false := by simp [isLowSurrogate]; omega
    have hh : isHighSurrogate c.toNat = false := by simp [isHighSurrogate]; omega
    rw [show (String.utf8EncodeChar c) = charOctets c.toNat by rw [charOctets, Char.ofNat_toNat],
      ← stringOctets_numbered rest hn hl hh]
    change stringOctets (0x5C :: 0x75 :: (Utf8.encode (Text.hexPadded 4 c.toNat) ++ rest)) = _
    rw [hw]
    rfl
  · next hq hb _ _ _ _ _ hc =>
    rw [show Utf8.encode [c] = String.utf8EncodeChar c from List.append_nil _]
    refine stringOctets_plains rest fun b h => ?_
    have hq' : c.toNat ≠ 0x22 := fun h => hq (eq_of_toNat '"' h)
    have hb' : c.toNat ≠ 0x5C := fun h => hb (eq_of_toNat '\\' h)
    have hn := toNat_of_mem_encodeChar h
    omega

/-- The text between quotes is scanned back, and the closing quote with it. -/
theorem stringText_escaped (s : String) (rest : Octets) :
    stringText (Utf8.encode (s.toList.flatMap escapeChar ++ ['"']) ++ rest) = .ok (s, rest) := by
  have scan : ∀ l : List Char, stringOctets (Utf8.encode (l.flatMap escapeChar ++ ['"']) ++ rest) =
      .ok (Utf8.encode l, rest) := by
    intro l
    induction l with
    | nil => exact stringOctets_quote rest
    | cons c l ih =>
      rw [List.flatMap_cons, List.append_assoc, Utf8.encode_append, List.append_assoc,
        stringOctets_escapeChar, ih]
      rfl
  have htext : Utf8.text (Utf8.encode s.toList) = .ok s := Utf8.text_octets s
  rw [stringText, scan s.toList]
  simp only [bind, Except.bind, htext]

def EndsNumber (rest : Octets) : Prop :=
  ∀ b ∈ rest.head?, isDigit b = false ∧ letter b ≠ '.' ∧ isExponentLetter b = false

theorem encode_digit {d : Nat} (h : d < 10) :
    Utf8.encode [Digits.ofValue d] = [UInt8.ofNat (0x30 + d)] := by
  have table : ∀ d < 10, Utf8.encode [Digits.ofValue d] = [UInt8.ofNat (0x30 + d)] := by decide
  exact table d h

theorem digit_facts {d : Nat} (h : d < 10) : isDigit (UInt8.ofNat (0x30 + d)) = true ∧
    digitValue (UInt8.ofNat (0x30 + d)) = d ∧ (letter (UInt8.ofNat (0x30 + d)) = '0' → d = 0) := by
  have table : ∀ d < 10, isDigit (UInt8.ofNat (0x30 + d)) = true ∧
      digitValue (UInt8.ofNat (0x30 + d)) = d ∧
      (letter (UInt8.ofNat (0x30 + d)) = '0' → d = 0) := by decide
  exact table d h

theorem integerDigits_digit (negative : Bool) (n : Nat) {d : Nat} (hd : d < 10)
    (hn : 10 * n + d < wordBound 64) (rest : Octets) :
    integerDigits negative n (UInt8.ofNat (0x30 + d) :: rest) =
      integerDigits negative (10 * n + d) rest := by
  obtain ⟨hdigit, hvalue, -⟩ := digit_facts hd
  rw [integerDigits, if_pos hdigit, hvalue, if_pos hn]

theorem integerDigits_end (negative : Bool) (n : Nat) {rest : Octets} (h : EndsNumber rest) :
    integerDigits negative n rest = .ok (integerNumeral negative n, rest) := by
  cases rest with
  | nil => rfl
  | cons b rest =>
    obtain ⟨hdigit, hpoint, hexp⟩ := h b rfl
    rw [integerDigits, if_neg (by simp [hdigit]), afterInteger, if_neg hpoint,
      if_neg (by simp [hexp])]

theorem numeral_write_pos (negative : Bool) {n : Nat} (hpos : 0 < n) (hn : n < wordBound 64)
    (rest : Octets) :
    numeral negative (Utf8.encode (Digits.write n) ++ rest) = integerDigits negative n rest := by
  induction n using Nat.strongRecOn generalizing rest with
  | _ n ih =>
    rw [Digits.write]
    split
    · next h =>
      obtain ⟨hdigit, hvalue, hzero⟩ := digit_facts h
      have hne : letter (UInt8.ofNat (0x30 + n)) ≠ '0' := fun h0 => by
        have := hzero h0
        omega
      rw [encode_digit h, List.singleton_append, numeral.eq_def]
      dsimp only
      rw [if_neg hne, if_pos hdigit, hvalue]
    · next h =>
      have hd : n % 10 < 10 := Nat.mod_lt _ (by decide)
      rw [Utf8.encode_append, List.append_assoc, ih (n / 10) (by omega) (by omega) (by omega),
        encode_digit hd, List.singleton_append, integerDigits_digit _ _ hd (by omega),
        show 10 * (n / 10) + n % 10 = n by omega]

/-- The digits of a natural that fits 64 bits are scanned as an integer of either sign. -/
theorem numeral_digits (negative : Bool) {n : Nat} (hn : n < wordBound 64) {rest : Octets}
    (h : EndsNumber rest) : numeral negative (Utf8.encode (Digits.write n) ++ rest) =
      .ok (integerNumeral negative n, rest) := by
  rcases Nat.eq_zero_or_pos n with rfl | hpos
  · rw [Digits.write, if_pos (by decide), encode_digit (by decide), List.singleton_append,
      numeral.eq_def]
    dsimp only
    rw [if_pos (by decide)]
    cases rest with
    | nil => rfl
    | cons b rest =>
      obtain ⟨hdigit, hpoint, hexp⟩ := h b rfl
      dsimp only
      rw [if_neg (by simp [hdigit]), afterInteger, if_neg hpoint, if_neg (by simp [hexp])]
  · rw [numeral_write_pos negative hpos hn, integerDigits_end negative n h]

/-- A natural that fits 64 bits is scanned back from its digits. -/
theorem numeral_write {n : Nat} (hn : n < wordBound 64) {rest : Octets} (h : EndsNumber rest) :
    numeral false (Utf8.encode (Digits.write n) ++ rest) = .ok (.natural n, rest) :=
  numeral_digits false hn h

theorem finished_eq_ok_iff {α : Type} {r : Except Fault (α × Octets)} {a : α} :
    finished r = .ok a ↔ ∃ rest, r = .ok (a, rest) ∧ skipBlank rest = [] := by
  rw [finished, bind_eq_ok_iff]
  constructor
  · rintro ⟨⟨v, rest⟩, rfl, h⟩
    simp only [List.isEmpty_iff] at h
    split at h
    · next hrest =>
      cases h
      exact ⟨rest, rfl, hrest⟩
    · cases h
  · rintro ⟨rest, rfl, hrest⟩
    exact ⟨(a, rest), rfl, by simp [hrest]⟩

end Json
end RowGate
