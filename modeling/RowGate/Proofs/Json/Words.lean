import RowGate.Proofs.Json.Grammar

/-! # Scanners read words of the grammar

Scanners that pass over a word accept just the words of the grammar. A scanner that wants the value
of a word accepts no more; what it has read is a front of the octets, and it reads this front alike
whatever stands behind it. So its outcome does not depend on where the word stands.
-/
namespace RowGate.Json

theorem letter_ne_of_shortEscape {e : UInt8} (h : (shortEscape e).isSome = true) :
    letter e ≠ 'u' := by
  intro hu
  simp [shortEscape, hu] at h

/-- A string is passed over up to the quote behind its body. -/
theorem skipString_body {body : Octets} (h : IsBody body) (rest : Octets) :
    skipString (body ++ 0x22 :: rest) = .ok rest := by
  induction h with
  | nil =>
    rw [List.nil_append, skipString.eq_def]
    rfl
  | plain hq hb hc _ ih =>
    rw [List.cons_append, skipString.eq_def]
    simp only [if_neg (letter_ne (c := '"') hq), if_neg (letter_ne (c := '\\') hb),
      if_neg (UInt8.not_lt.mpr hc)]
    exact ih
  | short he _ ih =>
    rw [List.cons_append, List.cons_append, skipString.eq_def]
    simp only [if_neg (letter_ne_of_shortEscape he), he]
    exact ih
  | numbered hn _ ih =>
    rw [List.cons_append, skipString.eq_def]
    simp only [List.cons_append, hn]
    exact ih

theorem isBody_of_skipString {s rest : Octets} (h : skipString s = .ok rest) :
    ∃ body, IsBody body ∧ s = body ++ 0x22 :: rest := by
  fun_induction skipString s with
  | case2 b s hq =>
    cases h
    obtain rfl : b = 0x22 := octet_of_letter hq
    exact ⟨[], .nil, rfl⟩
  | case4 b _ hb u hu a c d e s hn ih =>
    obtain ⟨body, hbody, rfl⟩ := ih h
    obtain rfl : b = 0x5C := octet_of_letter hb
    obtain rfl : u = 0x75 := octet_of_letter hu
    exact ⟨_, .numbered hn hbody, rfl⟩
  | case7 b _ hb e s _ he ih =>
    obtain ⟨body, hbody, rfl⟩ := ih h
    obtain rfl : b = 0x5C := octet_of_letter hb
    exact ⟨_, .short he hbody, rfl⟩
  | case10 b s hq hb hc ih =>
    obtain ⟨body, hbody, rfl⟩ := ih h
    have hq' : b ≠ 0x22 := fun h => hq (by rw [h]; rfl)
    have hb' : b ≠ 0x5C := fun h => hb (by rw [h]; rfl)
    exact ⟨_, .plain hq' hb' (UInt8.not_lt.mp hc) hbody, rfl⟩
  | _ => cases h

/-- Both halves of a surrogate pair are read at once. -/
theorem stringOctets_pair {a b c d a' b' c' d' : UInt8} {n m : Nat} (h : hex4 a b c d = some n)
    (hl : isLowSurrogate n = false) (hh : isHighSurrogate n = true)
    (h' : hex4 a' b' c' d' = some m) (hl' : isLowSurrogate m = true) (rest : Octets) :
    stringOctets
        (0x5C :: 0x75 :: a :: b :: c :: d :: 0x5C :: 0x75 :: a' :: b' :: c' :: d' :: rest) =
      precede (charOctets (pairValue n m)) (stringOctets rest) := by
  rw [stringOctets.eq_def]
  simp only [h, hl, hh, h', hl']
  rfl

theorem precede_eq_ok_iff {front t rest : Octets} {r : Except Fault (Octets × Octets)} :
    precede front r = .ok (t, rest) ↔ ∃ t', r = .ok (t', rest) ∧ front ++ t' = t := by
  rw [precede, map_eq_ok_iff]
  constructor
  · rintro ⟨⟨t', _⟩, hr, hpair⟩
    cases hpair
    exact ⟨t', hr, rfl⟩
  · rintro ⟨t', hr, rfl⟩
    exact ⟨(t', rest), hr, rfl⟩

/-- The octets of a string are those of its body, wherever it stands. -/
theorem stringOctets_body {s t rest : Octets} (h : stringOctets s = .ok (t, rest)) :
    ∃ body, IsBody body ∧ s = body ++ 0x22 :: rest ∧
      ∀ rest', stringOctets (body ++ 0x22 :: rest') = .ok (t, rest') := by
  fun_induction stringOctets s generalizing t with
  | case2 b s hq =>
    cases h
    obtain rfl : b = 0x22 := octet_of_letter hq
    exact ⟨[], .nil, rfl, stringOctets_quote⟩
  | case9 b _ hb u hu a c d e n hn hl hh b' hb' u' hu' a' c' d' e' s m hm hl' ih =>
    obtain ⟨t, ht, rfl⟩ := precede_eq_ok_iff.mp h
    obtain ⟨body, hbody, rfl, hread⟩ := ih ht
    obtain rfl : b = 0x5C := octet_of_letter hb
    obtain rfl : u = 0x75 := octet_of_letter hu
    obtain rfl : b' = 0x5C := octet_of_letter hb'
    obtain rfl : u' = 0x75 := octet_of_letter hu'
    have hnext := IsBody.numbered (Option.isSome_of_eq_some hm) hbody
    refine ⟨_, .numbered (Option.isSome_of_eq_some hn) hnext, rfl, fun rest' => ?_⟩
    have hpair := stringOctets_pair hn (eq_false_of_ne_true hl) hh hm hl'
    exact (hpair _).trans (precede_eq_ok_iff.mpr ⟨t, hread rest', rfl⟩)
  | case14 b _ hb u hu a c d e s n hn hl hh ih =>
    obtain ⟨t, ht, rfl⟩ := precede_eq_ok_iff.mp h
    obtain ⟨body, hbody, rfl, hread⟩ := ih ht
    obtain rfl : b = 0x5C := octet_of_letter hb
    obtain rfl : u = 0x75 := octet_of_letter hu
    refine ⟨_, .numbered (Option.isSome_of_eq_some hn) hbody, rfl, fun rest' => ?_⟩
    have hone := stringOctets_numbered (body ++ 0x22 :: rest') hn
      (eq_false_of_ne_true hl) (eq_false_of_ne_true hh)
    exact hone.trans (precede_eq_ok_iff.mpr ⟨t, hread rest', rfl⟩)
  | case16 b _ hb e s hu x hx ih =>
    obtain ⟨t, ht, rfl⟩ := precede_eq_ok_iff.mp h
    obtain ⟨body, hbody, rfl, hread⟩ := ih ht
    obtain rfl : b = 0x5C := octet_of_letter hb
    refine ⟨_, .short (Option.isSome_of_eq_some hx) hbody, rfl, fun rest' => ?_⟩
    exact (stringOctets_short _ hu hx).trans (precede_eq_ok_iff.mpr ⟨t, hread rest', rfl⟩)
  | case19 b s hq hb hc ih =>
    obtain ⟨t, ht, rfl⟩ := precede_eq_ok_iff.mp h
    obtain ⟨body, hbody, rfl, hread⟩ := ih ht
    have hq' : b ≠ 0x22 := fun h => hq (by rw [h]; rfl)
    have hb' : b ≠ 0x5C := fun h => hb (by rw [h]; rfl)
    have hc' : 0x20 ≤ b := UInt8.not_lt.mp hc
    refine ⟨_, .plain hq' hb' hc' hbody, rfl, fun rest' => ?_⟩
    have hone := stringOctets_plain (body ++ 0x22 :: rest')
      (fun h => hq' (UInt8.toNat_inj.mp h)) (fun h => hb' (UInt8.toNat_inj.mp h))
      (UInt8.le_iff_toNat_le.mp hc')
    exact hone.trans (precede_eq_ok_iff.mpr ⟨t, hread rest', rfl⟩)
  | _ => cases h

/-- The text of a string is that of its body, wherever it stands. -/
theorem stringText_body {s rest : Octets} {t : String} (h : stringText s = .ok (t, rest)) :
    ∃ body, IsBody body ∧ s = body ++ 0x22 :: rest ∧
      ∀ rest', stringText (body ++ 0x22 :: rest') = .ok (t, rest') := by
  obtain ⟨⟨octets, rest'⟩, hoctets, htext⟩ := bind_eq_ok_iff.mp h
  dsimp only at htext
  obtain ⟨body, hbody, rfl, hread⟩ := stringOctets_body hoctets
  split at htext
  · next t' ht =>
    cases htext
    refine ⟨body, hbody, rfl, fun rest' => bind_eq_ok_iff.mpr ⟨_, hread rest', ?_⟩⟩
    simp only [ht]
  · cases htext

theorem encodeChar_shortEscape {e x : UInt8} (h : shortEscape e = some x) :
    String.utf8EncodeChar (letter x) = [x] := by
  unfold shortEscape at h
  split at h
  all_goals cases h
  all_goals rfl

/-- The octets of a string are those of the characters that its body stands for. -/
theorem Denotes.stringOctets {body : Octets} {t : List Char} (h : Denotes body t) (rest : Octets) :
    stringOctets (body ++ 0x22 :: rest) = .ok (Utf8.encode t, rest) := by
  have precedes : ∀ {front t s}, Json.stringOctets s = .ok (Utf8.encode t, rest) →
      precede front (Json.stringOctets s) = .ok (front ++ Utf8.encode t, rest) :=
    fun hs => precede_eq_ok_iff.mpr ⟨_, hs, rfl⟩
  induction h with
  | nil => exact stringOctets_quote rest
  | @plain c s t hq hb hc _ ih =>
    have plain : ∀ b ∈ String.utf8EncodeChar c,
        b.toNat ≠ 0x22 ∧ b.toNat ≠ 0x5C ∧ 0x20 ≤ b.toNat := by
      intro b hmem
      have hn := toNat_of_mem_encodeChar hmem
      have hq' : c.toNat ≠ 0x22 := fun h => hq (Char.toNat_inj.mp h)
      have hb' : c.toNat ≠ 0x5C := fun h => hb (Char.toNat_inj.mp h)
      omega
    rw [List.append_assoc, stringOctets_plains _ plain, precedes ih, Utf8.encode_cons]
  | @short e x s t he _ ih =>
    have hu := letter_ne_of_shortEscape (Option.isSome_of_eq_some he)
    rw [List.cons_append, List.cons_append, stringOctets_short _ hu he, precedes ih,
      Utf8.encode_cons, encodeChar_shortEscape he]
  | numbered hn hl hh _ ih =>
    simp only [List.cons_append]
    rw [stringOctets_numbered _ hn hl hh, precedes ih, Utf8.encode_cons]
    rfl
  | @pair _ _ _ _ _ _ _ _ n m _ _ hn hh hm hl _ ih =>
    have hl' : isLowSurrogate n = false := by
      simp only [isHighSurrogate, isLowSurrogate, Bool.and_eq_true, decide_eq_true_eq,
        Bool.and_eq_false_iff, decide_eq_false_iff_not] at hh ⊢
      omega
    simp only [List.cons_append]
    rw [stringOctets_pair hn hl' hh hm hl, precedes ih, Utf8.encode_cons]
    rfl

theorem Denotes.stringText {body : Octets} {t : String} (h : Denotes body t.toList)
    (rest : Octets) : stringText (body ++ 0x22 :: rest) = .ok (t, rest) := by
  have htext : Utf8.text (Utf8.encode t.toList) = .ok t := Utf8.text_octets t
  rw [Json.stringText, h.stringOctets]
  simp only [bind, Except.bind, htext]

/-- Octets of plain characters stand for these. -/
theorem denotes_plain {t : List Char} (h : ∀ c ∈ t, c ≠ '"' ∧ c ≠ '\\' ∧ 0x20 ≤ c.toNat) :
    Denotes (Utf8.encode t) t := by
  induction t with
  | nil => exact .nil
  | cons c t ih =>
    obtain ⟨hq, hb, hc⟩ := h c List.mem_cons_self
    rw [Utf8.encode_cons]
    exact .plain hq hb hc (ih fun x hx => h x (List.mem_cons_of_mem _ hx))

theorem skipDigits_append {ds rest : Octets} (hds : AllDigits ds)
    (h : ∀ b ∈ rest.head?, isDigit b = false) : skipDigits (ds ++ rest) = rest := by
  rw [skipDigits, List.dropWhile_append_of_pos hds]
  cases rest with
  | nil => rfl
  | cons b rest => exact List.dropWhile_cons_of_neg (by rw [h b rfl]; exact Bool.false_ne_true)

theorem exists_digits_of_skipDigits {s rest : Octets} (h : skipDigits s = rest) :
    ∃ ds, AllDigits ds ∧ s = ds ++ rest := by
  refine ⟨s.takeWhile isDigit, List.all_eq_true.mp List.all_takeWhile, ?_⟩
  rw [← h, skipDigits, List.takeWhile_append_dropWhile]

theorem letter_ne_sign {b : UInt8} (h : isDigit b = true) : letter b ≠ '-' ∧ letter b ≠ '+' := by
  constructor
  · intro hb
    obtain rfl : b = 0x2D := octet_of_letter hb
    cases h
  · intro hb
    obtain rfl : b = 0x2B := octet_of_letter hb
    cases h

theorem not_digit_of_exponent {b : UInt8} (h : isExponentLetter b = true) :
    isDigit b = false ∧ letter b ≠ '.' := by
  simp only [isExponentLetter, Bool.or_eq_true, decide_eq_true_eq] at h
  rcases h with h | h
  · obtain rfl : b = 0x65 := octet_of_letter h
    decide
  · obtain rfl : b = 0x45 := octet_of_letter h
    decide

section Heads
variable {d rest : Octets}

/-- An exponent, if any, and what stands behind it continue no run of digits. -/
theorem IsExponent.head (h : IsExponent d) (hrest : EndsNumber rest) :
    ∀ b ∈ (d ++ rest).head?, isDigit b = false ∧ letter b ≠ '.' := by
  cases h with
  | none => exact fun b hb => ⟨(hrest b hb).1, (hrest b hb).2.1⟩
  | power he _ =>
    intro b hb
    cases hb
    exact not_digit_of_exponent he

theorem IsScale.head (h : IsScale d) (hrest : EndsNumber rest) :
    ∀ b ∈ (d ++ rest).head?, isDigit b = false := by
  obtain ⟨hf, he⟩ := h
  cases hf with
  | none => exact fun b hb => (he.head hrest b hb).1
  | point =>
    intro b hb
    cases hb
    rfl

end Heads

def skipScale (s : Octets) : Except Fault Octets :=
  match s with
  | b :: rest =>
    if letter b = '.' then
      match rest with
      | d :: rest => if isDigit d then skipScaled (skipDigits rest) else .error .malformed
      | [] => .error .malformed
    else skipScaled s
  | [] => .ok s

theorem skipNumeral_eq (s : Octets) : skipNumeral s = match s with
    | [] => .error .malformed
    | b :: rest =>
      if letter b = '0' then
        match rest with
        | d :: _ => if isDigit d then .error .malformed else skipScale rest
        | [] => skipScale rest
      else if isDigit b then skipScale (skipDigits rest)
      else .error .malformed :=
  rfl

section Passing
variable {d rest : Octets}

theorem skipExponent_power (h : IsPower d) (hrest : EndsNumber rest) :
    skipExponent (d ++ rest) = .ok rest := by
  obtain @⟨sign, ds, b, hs, hb, hds⟩ := h
  have hskip := skipDigits_append hds fun b hb => (hrest b hb).1
  rw [List.append_assoc, List.cons_append]
  cases hs with
  | none =>
    obtain ⟨hminus, hplus⟩ := letter_ne_sign hb
    simp only [skipExponent, List.nil_append, hminus, hplus, or_self, if_false, hb, if_true, hskip]
  | plus => exact (if_pos hb).trans (congrArg Except.ok hskip)
  | minus => exact (if_pos hb).trans (congrArg Except.ok hskip)

theorem skipScaled_exponent (h : IsExponent d) (hrest : EndsNumber rest) :
    skipScaled (d ++ rest) = .ok rest := by
  cases h with
  | none =>
    cases rest with
    | nil => rfl
    | cons b rest => exact if_neg (by simp [(hrest b rfl).2.2])
  | power he hd => exact (if_pos he).trans (skipExponent_power hd hrest)

theorem skipScale_scale (h : IsScale d) (hrest : EndsNumber rest) :
    skipScale (d ++ rest) = .ok rest := by
  obtain @⟨f, e, hf, he⟩ := h
  have hhead := he.head hrest
  have hskip := skipScaled_exponent he hrest
  rw [List.append_assoc]
  cases hf with
  | none =>
    rw [List.nil_append]
    cases hs : e ++ rest with
    | nil =>
      rw [hs] at hskip
      exact hskip
    | cons b s =>
      rw [hs] at hskip hhead
      exact (if_neg (hhead b rfl).2).trans hskip
  | point hb hds =>
    have hdigits := skipDigits_append hds fun b hb => (hhead b hb).1
    exact (if_pos hb).trans ((congrArg skipScaled hdigits).trans hskip)

/-- A number is passed over up to what ends it. -/
theorem skipNumeral_numeral (h : IsNumeral d) (hrest : EndsNumber rest) :
    skipNumeral (d ++ rest) = .ok rest := by
  obtain @⟨i, t, hi, ht⟩ := h
  have hhead := ht.head hrest
  have hskip := skipScale_scale ht hrest
  rw [List.append_assoc, skipNumeral_eq]
  cases hi with
  | zero =>
    have hzero : letter 0x30 = '0' := rfl
    simp only [List.singleton_append, if_pos hzero]
    cases hs : t ++ rest with
    | nil =>
      rw [hs] at hskip
      exact hskip
    | cons b s =>
      rw [hs] at hskip hhead
      simp only [hhead b rfl, Bool.false_eq_true, if_false, hskip]
  | @digits b ds hb hz hds =>
    have hdigits := skipDigits_append hds hhead
    simp only [List.cons_append, if_neg (letter_ne (c := '0') hz), if_pos hb, hdigits, hskip]

theorem isPower_of_skipExponent {s : Octets} (h : skipExponent s = .ok rest) :
    ∃ d, IsPower d ∧ s = d ++ rest := by
  obtain ⟨sign, t, hs, rfl, ht⟩ : ∃ sign t, IsSign sign ∧ s = sign ++ t ∧
      (match t with
        | b :: rest => if isDigit b then .ok (skipDigits rest) else .error .malformed
        | [] => .error .malformed) = (.ok rest : Except Fault Octets) := by
    unfold skipExponent at h
    cases s with
    | nil => cases h
    | cons b s =>
      by_cases hminus : letter b = '-'
      · obtain rfl : b = 0x2D := octet_of_letter hminus
        exact ⟨_, s, .minus, rfl, h⟩
      by_cases hplus : letter b = '+'
      · obtain rfl : b = 0x2B := octet_of_letter hplus
        exact ⟨_, s, .plus, rfl, h⟩
      simp only [hminus, hplus, or_self, if_false] at h
      exact ⟨[], _, .none, rfl, h⟩
  split at ht
  · next b t =>
    split at ht
    · next hb =>
      obtain ⟨ds, hds, rfl⟩ := exists_digits_of_skipDigits (Except.ok.inj ht)
      exact ⟨_, .mk hs hb hds, by simp⟩
    · cases ht
  · cases ht

theorem isExponent_of_skipScaled {s : Octets} (h : skipScaled s = .ok rest) :
    ∃ d, IsExponent d ∧ s = d ++ rest := by
  unfold skipScaled at h
  split at h
  · split at h
    · next he =>
      obtain ⟨d, hd, rfl⟩ := isPower_of_skipExponent h
      exact ⟨_, .power he hd, rfl⟩
    · cases h
      exact ⟨[], .none, rfl⟩
  · cases h
    exact ⟨[], .none, rfl⟩

theorem isScale_of_skipScale {s : Octets} (h : skipScale s = .ok rest) :
    ∃ d, IsScale d ∧ s = d ++ rest := by
  unfold skipScale at h
  split at h
  · next b s =>
    split at h
    · next hpoint =>
      obtain rfl : b = 0x2E := octet_of_letter hpoint
      split at h
      · next c s =>
        split at h
        · next hc =>
          obtain ⟨e, he, hs⟩ := isExponent_of_skipScaled h
          obtain ⟨ds, hds, rfl⟩ := exists_digits_of_skipDigits hs
          exact ⟨_, .mk (.point hc hds) he, by simp⟩
        · cases h
      · cases h
    · obtain ⟨e, he, hs⟩ := isExponent_of_skipScaled h
      exact ⟨_, .mk .none he, hs⟩
  · cases h
    exact ⟨_, .mk .none .none, rfl⟩

theorem isNumeral_of_skipNumeral {s : Octets} (h : skipNumeral s = .ok rest) :
    ∃ d, IsNumeral d ∧ s = d ++ rest := by
  rw [skipNumeral_eq] at h
  split at h
  · cases h
  next b s =>
  split at h
  · next hzero =>
    obtain rfl : b = 0x30 := octet_of_letter hzero
    have hscale : skipScale s = .ok rest := by
      split at h
      · split at h
        · cases h
        · exact h
      · exact h
    obtain ⟨d, hd, rfl⟩ := isScale_of_skipScale hscale
    exact ⟨_, .mk .zero hd, rfl⟩
  next hzero =>
  split at h
  · next hb =>
    obtain ⟨d, hd, hs⟩ := isScale_of_skipScale h
    obtain ⟨ds, hds, rfl⟩ := exists_digits_of_skipDigits hs
    have hz : b ≠ 0x30 := fun h => hzero (by rw [h]; rfl)
    exact ⟨_, .mk (.digits hb hz hds) hd, by simp⟩
  · cases h

end Passing

/-- Octets of some shape that a scanner reads as a number before all that ends one. -/
structure Front (scan : Octets → Except Fault (Numeral × Octets)) (shape : Octets → Prop)
    (m : Numeral) (d : Octets) : Prop where
  shape : shape d
  read : ∀ rest, EndsNumber rest → scan (d ++ rest) = .ok (m, rest)

theorem AllDigits.cons {b : UInt8} {ds : Octets} (hb : isDigit b = true) (hds : AllDigits ds) :
    AllDigits (b :: ds) :=
  List.forall_mem_cons.mpr ⟨hb, hds⟩

theorem map_pair_eq_ok {r : Except Fault Numeral} {m : Numeral} {s rest : Octets}
    (h : r.map (·, s) = .ok (m, rest)) : r = .ok m ∧ s = rest := by
  obtain ⟨m', hr, hpair⟩ := map_eq_ok_iff.mp h
  cases hpair
  exact ⟨hr, rfl⟩

inductive Run (behind : Octets → Prop) : Octets → Prop where
  | mk {ds d : Octets} (hds : AllDigits ds) (hd : behind d) : Run behind (ds ++ d)

theorem Run.nil {behind : Octets → Prop} {d : Octets} (hd : behind d) : Run behind d :=
  .mk (List.forall_mem_nil _) hd

theorem Run.cons {behind : Octets → Prop} {b : UInt8} {d : Octets} (hb : isDigit b = true)
    (hd : Run behind d) : Run behind (b :: d) := by
  obtain ⟨hds, he⟩ := hd
  exact .mk (.cons hb hds) he

theorem Run.scale {b : UInt8} {d : Octets} (hb : isDigit b = true) (hd : Run IsExponent d) :
    IsScale (0x2E :: b :: d) := by
  obtain ⟨hds, he⟩ := hd
  exact .mk (.point hb hds) he

section Reading
variable {negative : Bool} {n : Nat} {k : Int} {m : Numeral} {rest : Octets}

theorem exponentDigits_end {down : Bool} {e : Nat} {s : Octets}
    (h : ∀ b ∈ s.head?, isDigit b = false) : exponentDigits negative down n k e s =
      (fromParts negative n (if down then k - e else k + e)).map (·, s) := by
  cases s with
  | nil => rw [exponentDigits]
  | cons b s => rw [exponentDigits, if_neg (by simp [h b rfl])]

theorem scaled_end {s : Octets} (h : ∀ b ∈ s.head?, isExponentLetter b = false) :
    scaled negative n k s = (fromParts negative n k).map (·, s) := by
  cases s with
  | nil => rfl
  | cons b s => exact if_neg (by simp [h b rfl])

theorem exponentDigits_front {down : Bool} {e : Nat} {s : Octets}
    (h : exponentDigits negative down n k e s = .ok (m, rest)) :
    ∃ d, s = d ++ rest ∧ Front (exponentDigits negative down n k e) AllDigits m d := by
  fun_induction exponentDigits negative down n k e s with
  | case1 e =>
    obtain ⟨hm, rfl⟩ := map_pair_eq_ok h
    refine ⟨[], rfl, List.forall_mem_nil _, fun rest hrest => ?_⟩
    rw [List.nil_append, exponentDigits_end fun b hb => (hrest b hb).1, hm]
    rfl
  | case2 e b s hb hfits ih =>
    obtain ⟨d, rfl, hd⟩ := ih h
    refine ⟨b :: d, rfl, .cons hb hd.shape, fun rest hrest => ?_⟩
    rw [List.cons_append, exponentDigits, if_pos hb, if_pos hfits, hd.read rest hrest]
  | case3 => cases h
  | case4 e b s hb hfits hzero =>
    cases h
    obtain ⟨ds, hds, hs⟩ := exists_digits_of_skipDigits (rfl : skipDigits s = _)
    refine ⟨b :: ds, congrArg (b :: ·) hs, .cons hb hds, fun rest hrest => ?_⟩
    rw [List.cons_append, exponentDigits, if_pos hb, if_neg hfits, if_neg hzero,
      skipDigits_append hds fun b hb => (hrest b hb).1]
  | case5 e b s hb =>
    obtain ⟨hm, rfl⟩ := map_pair_eq_ok h
    refine ⟨[], rfl, List.forall_mem_nil _, fun rest hrest => ?_⟩
    rw [List.nil_append, exponentDigits_end fun b hb => (hrest b hb).1, hm]
    rfl

/-- The sign of an exponent says whether it goes down. -/
theorem exponent_eq {s : Octets} (h : exponent negative n k s = .ok (m, rest)) :
    ∃ sign down b s', IsSign sign ∧ isDigit b = true ∧ s = sign ++ b :: s' ∧
      exponentDigits negative down n k (digitValue b) s' = .ok (m, rest) ∧
      ∀ s'', exponent negative n k (sign ++ b :: s'') =
        exponentDigits negative down n k (digitValue b) s'' := by
  unfold exponent at h
  cases s with
  | nil => cases h
  | cons c s =>
    by_cases hminus : letter c = '-'
    · obtain rfl : c = 0x2D := octet_of_letter hminus
      cases s with
      | nil => cases h
      | cons b s =>
        by_cases hb : isDigit b = true
        · exact ⟨_, true, b, s, .minus, hb, rfl, (if_pos hb).symm.trans h, fun _ => if_pos hb⟩
        · cases (if_neg hb).symm.trans h
    by_cases hplus : letter c = '+'
    · obtain rfl : c = 0x2B := octet_of_letter hplus
      cases s with
      | nil => cases h
      | cons b s =>
        by_cases hb : isDigit b = true
        · exact ⟨_, false, b, s, .plus, hb, rfl, (if_pos hb).symm.trans h, fun _ => if_pos hb⟩
        · cases (if_neg hb).symm.trans h
    simp only [hminus, hplus, if_false] at h
    by_cases hc : isDigit c = true
    · refine ⟨_, false, c, s, .none, hc, rfl, (if_pos hc).symm.trans h, fun s'' => ?_⟩
      rw [exponent.eq_def, List.nil_append]
      simp only [hminus, hplus, if_false, hc, if_true]
    · cases (if_neg hc).symm.trans h

theorem exponent_front {s : Octets} (h : exponent negative n k s = .ok (m, rest)) :
    ∃ d, s = d ++ rest ∧ Front (exponent negative n k) IsPower m d := by
  obtain ⟨sign, down, b, s, hs, hb, rfl, hread, heq⟩ := exponent_eq h
  obtain ⟨d, rfl, hd⟩ := exponentDigits_front hread
  refine ⟨sign ++ b :: d, by simp, .mk hs hb hd.shape, fun rest hrest => ?_⟩
  rw [List.append_assoc, List.cons_append, heq, hd.read rest hrest]

theorem scaled_front {s : Octets} (h : scaled negative n k s = .ok (m, rest)) :
    ∃ d, s = d ++ rest ∧ Front (scaled negative n k) IsExponent m d := by
  have plain : ∀ s, (fromParts negative n k).map (·, s) = .ok (m, rest) →
      ∃ d, s = d ++ rest ∧ Front (scaled negative n k) IsExponent m d := by
    intro s hs
    obtain ⟨hm, rfl⟩ := map_pair_eq_ok hs
    refine ⟨[], rfl, .none, fun rest hrest => ?_⟩
    rw [List.nil_append, scaled_end fun b hb => (hrest b hb).2.2, hm]
    rfl
  cases s with
  | nil => exact plain [] h
  | cons b s =>
    rw [scaled] at h
    split at h
    · next he =>
      obtain ⟨d, rfl, hd⟩ := exponent_front h
      refine ⟨b :: d, rfl, .power he hd.shape, fun rest hrest => ?_⟩
      exact (if_pos he).trans (hd.read rest hrest)
    · exact plain _ h

theorem places_of_head {s : Octets} (h : ∀ b ∈ s.head?, isDigit b = false) :
    places negative n k true s = scaled negative n k s := by
  cases s with
  | nil => rfl
  | cons b s => rw [places, if_neg (by simp [h b rfl]), if_pos rfl]

theorem places_front {any : Bool} {s : Octets} (h : places negative n k any s = .ok (m, rest)) :
    ∃ d, s = d ++ rest ∧ Front (places negative n k any)
      (fun d => Run IsExponent d ∧ (any = false → IsScale (0x2E :: d))) m d := by
  have plain : ∀ n k s, scaled negative n k s = .ok (m, rest) →
      ∃ d, s = d ++ rest ∧ Front (places negative n k true)
        (fun d => Run IsExponent d ∧ (true = false → IsScale (0x2E :: d))) m d := by
    intro n k s hscaled
    obtain ⟨d, rfl, hd⟩ := scaled_front hscaled
    refine ⟨d, rfl, ⟨.nil hd.shape, nofun⟩, fun rest hrest => ?_⟩
    rw [places_of_head fun b hb => (hd.shape.head hrest b hb).1, hd.read rest hrest]
  fun_induction places negative n k any s with
  | case1 n k => exact plain n k [] h
  | case2 => cases h
  | case3 n k any b s hb hfits ih =>
    obtain ⟨d, rfl, hd⟩ := ih h
    have hrun := hd.shape.1
    refine ⟨b :: d, rfl, ⟨hrun.cons hb, fun _ => hrun.scale hb⟩, fun rest hrest => ?_⟩
    rw [List.cons_append, places, if_pos hb, if_pos hfits, hd.read rest hrest]
  | case4 n k any b s hb hfits =>
    obtain ⟨d, hs, hd⟩ := scaled_front h
    obtain ⟨ds, hds, rfl⟩ := exists_digits_of_skipDigits hs
    have hrun := Run.mk hds hd.shape
    refine ⟨b :: (ds ++ d), by simp, ⟨hrun.cons hb, fun _ => hrun.scale hb⟩, fun rest hrest => ?_⟩
    have hskip := skipDigits_append hds fun b hb => (hd.shape.head hrest b hb).1
    rw [List.cons_append, List.append_assoc, places, if_pos hb, if_neg hfits, hskip,
      hd.read rest hrest]
  | case5 n k b s hb => exact plain n k (b :: s) h
  | case6 => cases h

/-- Places behind a point are the scale of a number. -/
theorem point_front {s : Octets} (h : places negative n k false s = .ok (m, rest)) :
    ∃ d, s = d ++ rest ∧ Front (places negative n k false) (fun d => IsScale (0x2E :: d)) m d := by
  obtain ⟨d, rfl, hd⟩ := places_front h
  exact ⟨d, rfl, hd.shape.2 rfl, hd.read⟩

theorem longInteger_of_head {s : Octets} (h : ∀ b ∈ s.head?, isDigit b = false ∧ letter b ≠ '.') :
    longInteger negative n k s = scaled negative n k s := by
  cases s with
  | nil => rfl
  | cons b s => rw [longInteger, if_neg (by simp [(h b rfl).1]), if_neg (h b rfl).2]

theorem longInteger_front {s : Octets} (h : longInteger negative n k s = .ok (m, rest)) :
    ∃ d, s = d ++ rest ∧ Front (longInteger negative n k) (Run IsScale) m d := by
  have plain : ∀ k s, scaled negative n k s = .ok (m, rest) →
      ∃ d, s = d ++ rest ∧ Front (longInteger negative n k) (Run IsScale) m d := by
    intro k s hscaled
    obtain ⟨d, rfl, hd⟩ := scaled_front hscaled
    refine ⟨d, rfl, .nil (.mk .none hd.shape), fun rest hrest => ?_⟩
    rw [longInteger_of_head (hd.shape.head hrest), hd.read rest hrest]
  fun_induction longInteger negative n k s with
  | case1 k => exact plain k [] h
  | case2 k b s hb ih =>
    obtain ⟨d, rfl, hd⟩ := ih h
    refine ⟨b :: d, rfl, hd.shape.cons hb, fun rest hrest => ?_⟩
    rw [List.cons_append, longInteger, if_pos hb, hd.read rest hrest]
  | case3 k b s hb hpoint =>
    obtain ⟨d, rfl, hd⟩ := point_front h
    obtain rfl : b = 0x2E := octet_of_letter hpoint
    refine ⟨0x2E :: d, rfl, .nil hd.shape, fun rest hrest => ?_⟩
    rw [List.cons_append, longInteger, if_neg hb, if_pos hpoint, hd.read rest hrest]
  | case4 k b s => exact plain k (b :: s) h

theorem afterInteger_front {s : Octets} (h : afterInteger negative n s = .ok (m, rest)) :
    ∃ d, s = d ++ rest ∧ Front (afterInteger negative n) IsScale m d := by
  have plain : Front (afterInteger negative n) IsScale (integerNumeral negative n) [] := by
    refine ⟨.mk .none .none, fun rest hrest => ?_⟩
    cases rest with
    | nil => rfl
    | cons b rest =>
      obtain ⟨-, hpoint, he⟩ := hrest b rfl
      rw [List.nil_append, afterInteger, if_neg hpoint, if_neg (by simp [he])]
  unfold afterInteger at h
  split at h
  · cases h
    exact ⟨[], rfl, plain⟩
  next b s =>
  split at h
  · next hpoint =>
    obtain ⟨d, rfl, hd⟩ := point_front h
    obtain rfl : b = 0x2E := octet_of_letter hpoint
    refine ⟨0x2E :: d, rfl, hd.shape, fun rest hrest => ?_⟩
    rw [List.cons_append, afterInteger, if_pos hpoint, hd.read rest hrest]
  next hpoint =>
  split at h
  · next he =>
    obtain ⟨d, rfl, hd⟩ := exponent_front h
    refine ⟨b :: d, rfl, .mk .none (.power he hd.shape), fun rest hrest => ?_⟩
    rw [List.cons_append, afterInteger, if_neg hpoint, if_pos he, hd.read rest hrest]
  · cases h
    exact ⟨[], rfl, plain⟩

theorem integerDigits_of_head {s : Octets} (h : ∀ b ∈ s.head?, isDigit b = false) :
    integerDigits negative n s = afterInteger negative n s := by
  cases s with
  | nil => rfl
  | cons b s => rw [integerDigits, if_neg (by simp [h b rfl])]

theorem integerDigits_front {s : Octets} (h : integerDigits negative n s = .ok (m, rest)) :
    ∃ d, s = d ++ rest ∧ Front (integerDigits negative n) (Run IsScale) m d := by
  have plain : ∀ n s, afterInteger negative n s = .ok (m, rest) →
      ∃ d, s = d ++ rest ∧ Front (integerDigits negative n) (Run IsScale) m d := by
    intro n s hafter
    obtain ⟨d, rfl, hd⟩ := afterInteger_front hafter
    refine ⟨d, rfl, .nil hd.shape, fun rest hrest => ?_⟩
    rw [integerDigits_of_head (hd.shape.head hrest), hd.read rest hrest]
  fun_induction integerDigits negative n s with
  | case1 n => exact plain n [] h
  | case2 n b s hb hfits ih =>
    obtain ⟨d, rfl, hd⟩ := ih h
    refine ⟨b :: d, rfl, hd.shape.cons hb, fun rest hrest => ?_⟩
    rw [List.cons_append, integerDigits, if_pos hb, if_pos hfits, hd.read rest hrest]
  | case3 n b s hb hfits =>
    obtain ⟨d, rfl, hd⟩ := longInteger_front h
    refine ⟨b :: d, rfl, hd.shape.cons hb, fun rest hrest => ?_⟩
    rw [List.cons_append, integerDigits, if_pos hb, if_neg hfits, hd.read rest hrest]
  | case4 n b s => exact plain n (b :: s) h

theorem numeral_zero {s : Octets} (h : ∀ b ∈ s.head?, isDigit b = false) :
    numeral negative (0x30 :: s) = afterInteger negative 0 s := by
  have hzero : letter 0x30 = '0' := rfl
  rw [numeral.eq_def]
  simp only [if_pos hzero]
  cases s with
  | nil => rfl
  | cons b s => exact if_neg (by simp [h b rfl])

/-- A number is read from its octets, wherever they stand. -/
theorem numeral_front {s : Octets} (h : numeral negative s = .ok (m, rest)) :
    ∃ d, s = d ++ rest ∧ Front (numeral negative) IsNumeral m d := by
  cases s with
  | nil => cases h
  | cons b s =>
    rw [numeral.eq_def] at h
    by_cases hzero : letter b = '0'
    · simp only [if_pos hzero] at h
      obtain rfl : b = 0x30 := octet_of_letter hzero
      have hafter : afterInteger negative 0 s = .ok (m, rest) := by
        split at h
        · split at h
          · cases h
          · exact h
        · exact h
      obtain ⟨d, rfl, hd⟩ := afterInteger_front hafter
      refine ⟨0x30 :: d, rfl, .mk .zero hd.shape, fun rest hrest => ?_⟩
      rw [List.cons_append, numeral_zero (hd.shape.head hrest), hd.read rest hrest]
    by_cases hb : isDigit b = true
    · simp only [if_neg hzero, if_pos hb] at h
      obtain ⟨_, rfl, @⟨⟨hds, hscale⟩, hread⟩⟩ := integerDigits_front h
      have hz : b ≠ 0x30 := fun h => hzero (by rw [h]; rfl)
      refine ⟨b :: _, rfl, .mk (.digits hb hz hds) hscale, fun rest hrest => ?_⟩
      rw [List.cons_append, numeral.eq_def]
      simp only [if_neg hzero, if_pos hb]
      exact hread rest hrest
    · simp only [if_neg hzero, if_neg hb] at h
      cases h

end Reading

end RowGate.Json
