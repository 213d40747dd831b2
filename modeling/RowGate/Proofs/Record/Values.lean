import RowGate.Proofs.Json.Walk
import RowGate.Proofs.Record.Given

/-! # What readers of values make of forms

The reader of a kind of values accepts a value of the grammar and looks at no more than its form:
what stands behind it and the blanks inside it do not matter. So reading is described by a relation
between forms and values, and each reader is sound and complete for it.
-/
namespace RowGate
open Json

def ReadsAs (body : Octets) (t : String) : Prop :=
  ∀ rest, stringText (body ++ 0x22 :: rest) = .ok (t, rest)

def GivesText (f : Form) (t : String) : Prop := ∃ body, f = .string body ∧ ReadsAs body t

def Kind.Gives : (k : Kind) → Form → k.Carrier → Prop
  | .text, f, t => GivesText f t
  | .flag, f, b => f = .boolean b
  | .word bits, f, w => ∃ negative d n, f = .number negative d ∧
      (∀ rest, EndsNumber rest → numeral negative (d ++ rest) = .ok (n, rest)) ∧
      Record.fitWord bits (Kind.word bits).expected n = .ok w
  | .texts, f, ts => ∃ items, f = .array items ∧ List.Forall₂ GivesText items ts
  | .optional k, f, v => (f = .null ∧ v = none) ∨ (f ≠ .null ∧ ∃ w, v = some w ∧ k.Gives f w)

namespace Record
variable {s rest : Octets}

theorem readText_sound {t : String} (h : readText s = .ok (t, rest)) :
    ∃ f d, Spells f d ∧ GivesText f t ∧ skipBlank s = d ++ rest := by
  unfold readText at h
  split at h
  · cases h
  next b s' hs =>
  split at h
  · next hb =>
    obtain ⟨body, hbody, rfl, hread⟩ := stringText_body h
    obtain rfl : b = 0x22 := octet_of_letter hb
    exact ⟨_, _, .string hbody, ⟨body, rfl, hread⟩, by simpa using hs⟩
  · exact absurd h (Schema.mismatch_ne_ok _ _ _)

theorem readText_complete {f : Form} {d : Octets} {t : String} (hf : Spells f d)
    (hs : skipBlank s = d ++ rest) (ht : GivesText f t) : readText s = .ok (t, rest) := by
  obtain ⟨body, rfl, hread⟩ := ht
  cases hf with
  | string hbody =>
    have hquote : letter 0x22 = '"' := rfl
    rw [readText, hs]
    simp only [List.cons_append, List.append_assoc, List.nil_append, if_pos hquote, hread rest]

theorem readFlag_sound {v : Bool} (h : readFlag s = .ok (v, rest)) :
    ∃ d, Spells (.boolean v) d ∧ skipBlank s = d ++ rest := by
  unfold readFlag at h
  split at h
  · cases h
  next b s' hs =>
  split at h
  · next hb =>
    obtain ⟨t, ht, hpair⟩ := map_eq_ok_iff.mp h
    cases hpair
    obtain rfl : b = 0x74 := octet_of_letter hb
    exact ⟨_, .isTrue, by rw [hs, word_eq_ok ht]; rfl⟩
  · next hb =>
    obtain ⟨t, ht, hpair⟩ := map_eq_ok_iff.mp h
    cases hpair
    obtain rfl : b = 0x66 := octet_of_letter hb
    exact ⟨_, .isFalse, by rw [hs, word_eq_ok ht]; rfl⟩
  · exact absurd h (Schema.mismatch_ne_ok _ _ _)

theorem readFlag_complete {d : Octets} {v : Bool} (hf : Spells (.boolean v) d)
    (hs : skipBlank s = d ++ rest) : readFlag s = .ok (v, rest) := by
  cases hf with
  | isTrue =>
    rw [readFlag, hs]
    rfl
  | isFalse =>
    rw [readFlag, hs]
    rfl

section Words
variable {bits : Nat} {expected : String} {w : Word bits}

theorem readWord_sound (h : readWord bits expected s = .ok (w, rest)) :
    ∃ negative d n d', Spells (.number negative d) d' ∧ skipBlank s = d' ++ rest ∧
      (∀ rest, EndsNumber rest → numeral negative (d ++ rest) = .ok (n, rest)) ∧
      fitWord bits expected n = .ok w := by
  unfold readWord at h
  split at h
  · cases h
  next b s' hs =>
  split at h
  · next hb =>
    obtain ⟨⟨n, t⟩, hn, hfit⟩ := bind_eq_ok_iff.mp h
    obtain ⟨v, hv, hpair⟩ := bind_eq_ok_iff.mp hfit
    cases hpair
    obtain ⟨d, rfl, hd⟩ := numeral_front hn
    obtain rfl : b = 0x2D := octet_of_letter hb
    exact ⟨true, d, n, _, .negative hd.shape, hs, hd.read, hv⟩
  split at h
  · obtain ⟨⟨n, t⟩, hn, hfit⟩ := bind_eq_ok_iff.mp h
    obtain ⟨v, hv, hpair⟩ := bind_eq_ok_iff.mp hfit
    cases hpair
    obtain ⟨d, hnumber, hd⟩ := numeral_front hn
    exact ⟨false, d, n, _, .natural hd.shape, hs.trans hnumber, hd.read, hv⟩
  · exact absurd h (Schema.mismatch_ne_ok _ _ _)

theorem readWord_complete {negative : Bool} {d d' : Octets} {n : Numeral}
    (hf : Spells (.number negative d) d') (hs : skipBlank s = d' ++ rest)
    (hrest : EndsNumber rest)
    (hn : ∀ rest, EndsNumber rest → numeral negative (d ++ rest) = .ok (n, rest))
    (hfit : fitWord bits expected n = .ok w) : readWord bits expected s = .ok (w, rest) := by
  cases hf with
  | negative hd =>
    have hminus : letter 0x2D = '-' := rfl
    rw [readWord, hs]
    simp only [List.cons_append, if_pos hminus, hn rest hrest, bind, Except.bind, hfit]
  | natural hd =>
    obtain ⟨b, ds, hb, rfl⟩ := hd.exists_digit
    have hread := hn rest hrest
    rw [List.cons_append] at hs hread
    rw [readWord, hs]
    simp only [if_neg (letter_ne_sign hb).1, if_pos hb, hread, bind, Except.bind, hfit]

end Words

/-- The start of an item stands behind blanks, and behind a comma when it is not the first. -/
theorem nextItem_eq_some {first : Bool} {t : Octets} (h : nextItem first s = .ok (some t)) :
    ∃ w, Blank w ∧ if first then s = w ++ t else
      ∃ w', Blank w' ∧ s = w' ++ 0x2C :: (w ++ t) := by
  unfold nextItem at h
  split at h
  · cases h
  next b s' hs =>
  obtain ⟨w, hw, rfl⟩ := exists_blank_of_skipBlank hs
  split at h
  · cases h
  split at h
  · next hfirst =>
    cases h
    exact ⟨w, hw, by rw [if_pos hfirst]⟩
  next hfirst =>
  split at h
  · next hb =>
    obtain rfl : b = 0x2C := octet_of_letter hb
    split at h
    · cases h
    next c t' hs' =>
    obtain ⟨w', hw', rfl⟩ := exists_blank_of_skipBlank hs'
    split at h
    · cases h
    · cases h
      exact ⟨w', hw', by rw [if_neg hfirst]; exact ⟨w, hw, rfl⟩⟩
  · cases h

theorem nextItem_bracket {t : Octets} (first : Bool) (hs : skipBlank s = 0x5D :: t) :
    nextItem first s = .ok none := by
  rw [nextItem, hs]
  rfl

theorem closeArray_eq_ok_iff : closeArray s = .ok rest ↔ skipBlank s = 0x5D :: rest := by
  unfold closeArray
  constructor
  · intro h
    split at h
    · cases h
    next b s' hs =>
    split at h
    · next hb =>
      cases h
      obtain rfl : b = 0x5D := octet_of_letter hb
      exact hs
    · cases h
  · intro h
    rw [h]
    rfl

/-- Items are read up to the closing bracket, which stands behind blanks. -/
theorem readItems_sound {fuel : Nat} {first : Bool} {ts : List String} {s' : Octets}
    (h : readItems fuel first s = .ok (ts, s')) (hclose : skipBlank s' = 0x5D :: rest) :
    (ts = [] ∧ s = s') ∨ ∃ items d, SpellsItems items d ∧ List.Forall₂ GivesText items ts ∧
      nextItem first s = .ok (some (d ++ rest)) := by
  induction fuel generalizing first s ts with
  | zero => cases h
  | succ fuel ih =>
    unfold readItems at h
    obtain ⟨next, hnext, h⟩ := bind_eq_ok_iff.mp h
    cases next with
    | none =>
      cases h
      exact .inl ⟨rfl, rfl⟩
    | some t =>
      obtain ⟨⟨x, t'⟩, hx, hmore⟩ := bind_eq_ok_iff.mp h
      obtain ⟨⟨xs, t''⟩, hxs, hpair⟩ := bind_eq_ok_iff.mp hmore
      cases hpair
      obtain ⟨f, d, hd, hf, ht⟩ := readText_sound hx
      obtain ⟨w, hw, rfl⟩ := exists_blank_of_skipBlank ht
      right
      rcases ih hxs with ⟨rfl, rfl⟩ | ⟨items, more, hitems, htexts, hbehind⟩
      · obtain ⟨w', hw', rfl⟩ := exists_blank_of_skipBlank hclose
        exact ⟨_, _, .last hw hd hw', .cons hf .nil, by rw [hnext]; simp⟩
      · obtain ⟨w', hw', w'', hw'', rfl⟩ := nextItem_eq_some hbehind
        have hmore := hitems.behind_blank hw'
        exact ⟨_, _, .more hw hd hw'' hmore, .cons hf htexts, by rw [hnext]; simp⟩

theorem nextItem_first {l : List Form} {d : Octets} (h : SpellsItems l d) :
    nextItem true (d ++ rest) = .ok (some (skipBlank (d ++ rest))) := by
  obtain ⟨b, t, hfirst, hb⟩ := h.head_ne_bracket rest
  rw [nextItem, hfirst]
  simp only [if_neg hb, if_true]

theorem nextItem_behind {l : List Form} {d w : Octets} (h : SpellsItems l d) (hw : Blank w) :
    nextItem false (w ++ 0x2C :: (d ++ rest)) = .ok (some (skipBlank (d ++ rest))) := by
  obtain ⟨b, t, hfirst, hb⟩ := h.head_ne_bracket rest
  have hcomma : skipBlank (w ++ 0x2C :: (d ++ rest)) = 0x2C :: (d ++ rest) := skipBlank_append hw _
  have hletter : letter 0x2C = ',' := rfl
  rw [nextItem, hcomma, hfirst]
  simp only [hletter, Char.reduceEq, Bool.false_eq_true, if_false, if_true, if_neg hb, hfirst]

theorem readItems_complete {items : List Form} {d : Octets} {ts : List String}
    (hd : SpellsItems items d) (hts : List.Forall₂ GivesText items ts) {fuel : Nat}
    (hfuel : items.length < fuel) {first : Bool}
    (hs : nextItem first s = .ok (some (skipBlank (d ++ rest)))) :
    ∃ s', skipBlank s' = 0x5D :: rest ∧ readItems fuel first s = .ok (ts, s') := by
  induction items generalizing d ts fuel first s with
  | nil => cases hd
  | cons f items ih =>
    obtain ⟨fuel, rfl⟩ : ∃ n, fuel = n + 1 := ⟨fuel - 1, by omega⟩
    rw [List.length_cons] at hfuel
    cases hts with
    | @cons _ t _ ts hf hts =>
    cases hd with
    | @last _ w w' d hw hfd hw' =>
      cases hts
      obtain ⟨fuel, rfl⟩ : ∃ n, fuel = n + 1 := ⟨fuel - 1, by omega⟩
      simp only [List.append_assoc, List.cons_append, List.nil_append] at hs
      rw [hfd.skipBlank_append hw] at hs
      have hclose : skipBlank (w' ++ 0x5D :: rest) = 0x5D :: rest := skipBlank_append hw' _
      have htext : readText (d ++ (w' ++ 0x5D :: rest)) = .ok (t, w' ++ 0x5D :: rest) :=
        readText_complete hfd (hfd.skipBlank_append (w := []) nofun _) hf
      refine ⟨w' ++ 0x5D :: rest, hclose, ?_⟩
      simp only [readItems, hs, bind, Except.bind, htext, nextItem_bracket false hclose]
    | @more _ _ w w' d more hw hfd hw' hl =>
      simp only [List.append_assoc, List.cons_append] at hs
      rw [hfd.skipBlank_append hw] at hs
      have htext : readText (d ++ (w' ++ 0x2C :: (more ++ rest))) =
          .ok (t, w' ++ 0x2C :: (more ++ rest)) :=
        readText_complete hfd (hfd.skipBlank_append (w := []) nofun _) hf
      have hbehind : items.length < fuel := by omega
      obtain ⟨s', hclose, hmore⟩ := ih hl hts hbehind (nextItem_behind hl hw')
      refine ⟨s', hclose, ?_⟩
      simp only [readItems, hs, bind, Except.bind, htext, hmore]

theorem readTexts_sound {ts : List String} (h : readTexts s = .ok (ts, rest)) :
    ∃ items d, Spells (.array items) d ∧ List.Forall₂ GivesText items ts ∧
      skipBlank s = d ++ rest := by
  unfold readTexts at h
  split at h
  · cases h
  next b t hs =>
  split at h
  · next hb =>
    obtain rfl : b = 0x5B := octet_of_letter hb
    obtain ⟨⟨xs, t'⟩, hxs, hbehind⟩ := bind_eq_ok_iff.mp h
    obtain ⟨t'', hclose, hpair⟩ := bind_eq_ok_iff.mp hbehind
    cases hpair
    have hend := closeArray_eq_ok_iff.mp hclose
    rcases readItems_sound hxs hend with ⟨rfl, rfl⟩ | ⟨items, d, hitems, htexts, hnext⟩
    · obtain ⟨w, hw, rfl⟩ := exists_blank_of_skipBlank hend
      exact ⟨[], _, .noItems hw, .nil, by rw [hs]; simp⟩
    · obtain ⟨w, hw, rfl⟩ := nextItem_eq_some hnext
      exact ⟨items, _, .array (hitems.behind_blank hw), htexts, by rw [hs]; simp⟩
  · exact absurd h (Schema.mismatch_ne_ok _ _ _)

theorem readTexts_complete {items : List Form} {d : Octets} {ts : List String}
    (hf : Spells (.array items) d) (hs : skipBlank s = d ++ rest)
    (hts : List.Forall₂ GivesText items ts) : readTexts s = .ok (ts, rest) := by
  have hletter : letter 0x5B = '[' := rfl
  cases hf with
  | @noItems w hw =>
    cases hts
    have hclose : skipBlank (w ++ 0x5D :: rest) = 0x5D :: rest := skipBlank_append hw _
    rw [readTexts, hs]
    simp only [List.cons_append, List.append_assoc, List.nil_append, if_pos hletter, readItems,
      nextItem_bracket true hclose, bind, Except.bind, closeArray_eq_ok_iff.mpr hclose]
  | @array _ d h =>
    have hfuel : items.length < (d ++ rest).length + 1 := by
      have hlen := h.length_le
      rw [List.length_append]
      omega
    have hfirst : nextItem true (d ++ rest) = .ok (some (skipBlank (d ++ rest))) :=
      nextItem_first h
    obtain ⟨s', hclose, hread⟩ := readItems_complete h hts hfuel hfirst
    rw [readTexts, hs]
    simp only [List.cons_append, if_pos hletter, hread, bind, Except.bind,
      closeArray_eq_ok_iff.mpr hclose]

/-- What is read as a value of a kind is a value whose form gives it. -/
theorem readValue_sound (k : Kind) {v : k.Carrier} (h : readValue k s = .ok (v, rest)) :
    ∃ f d, Spells f d ∧ k.Gives f v ∧ skipBlank s = d ++ rest := by
  induction k with
  | text => exact readText_sound h
  | flag =>
    obtain ⟨d, hd, hs⟩ := readFlag_sound h
    exact ⟨_, d, hd, rfl, hs⟩
  | word bits =>
    obtain ⟨negative, d, n, d', hd, hs, hn, hfit⟩ := readWord_sound h
    exact ⟨_, d', hd, ⟨negative, d, n, rfl, hn, hfit⟩, hs⟩
  | texts =>
    obtain ⟨items, d, hd, hts, hs⟩ := readTexts_sound h
    exact ⟨_, d, hd, ⟨items, rfl, hts⟩, hs⟩
  | optional k ih =>
    unfold readValue at h
    split at h
    · next b t hs =>
      split at h
      · next hb =>
        obtain ⟨t', ht, hpair⟩ := map_eq_ok_iff.mp h
        cases hpair
        obtain rfl : b = 0x6E := octet_of_letter hb
        exact ⟨.null, _, .null, .inl ⟨rfl, rfl⟩, by rw [hs, word_eq_ok ht]; rfl⟩
      · next hb =>
        obtain ⟨⟨w, t'⟩, hread, hpair⟩ := map_eq_ok_iff.mp h
        cases hpair
        obtain ⟨f, d, hd, hf, hs'⟩ := ih hread
        have hne : f ≠ .null := by
          rintro rfl
          cases hd
          rw [hs] at hs'
          cases hs'
          exact hb rfl
        exact ⟨f, d, hd, .inr ⟨hne, w, rfl, hf⟩, hs'⟩
    · cases h

/-- Every value is read as what its form gives. -/
theorem readValue_complete (k : Kind) {f : Form} {d : Octets} {v : k.Carrier} (hd : Spells f d)
    (hs : skipBlank s = d ++ rest) (hrest : EndsNumber rest) (hv : k.Gives f v) :
    readValue k s = .ok (v, rest) := by
  induction k with
  | text => exact readText_complete hd hs hv
  | flag =>
    cases hv
    exact readFlag_complete hd hs
  | word bits =>
    obtain ⟨negative, e, n, rfl, hn, hfit⟩ := hv
    exact readWord_complete hd hs hrest hn hfit
  | texts =>
    obtain ⟨items, rfl, hts⟩ := hv
    exact readTexts_complete hd hs hts
  | optional k ih =>
    rcases hv with ⟨rfl, rfl⟩ | ⟨hne, w, rfl, hw⟩
    · cases hd
      rw [readValue, hs]
      rfl
    · obtain ⟨b, t, hb, rfl⟩ := hd.head_ne_null hne
      have hread := ih hw
      rw [readValue, hs]
      simp only [List.cons_append, if_neg hb, hread]
      rfl

end Record

end RowGate
