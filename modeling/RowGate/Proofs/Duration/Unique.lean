import RowGate.Proofs.Duration.Acceptance
import RowGate.Proofs.Text

/-! # Spelled durations are unambiguous

Blanks, numbers and names of units share no character at which one of them stops, so a text is cut
into terms in one way, and each number is read in one way. Blanks around the terms of a text belong
to none of them.
-/
namespace RowGate.Duration.Spelled
open RowGate.Text

section Characters
variable {c : Char}

theorem not_letter_of_isDigit (h : Digits.isDigit c = true) : isLetter c = false := by
  have table : ∀ k < 10, isLetter (Digits.ofValue k) = false := by decide
  obtain ⟨k, hk, rfl⟩ := Digits.exists_of_isDigit h
  exact table k hk

theorem toNat_of_isLetter (h : isLetter c = true) :
    (65 ≤ c.toNat ∧ c.toNat ≤ 122) ∨ c.toNat = 181 := by
  simp only [isLetter, Bool.or_eq_true, Bool.and_eq_true, decide_eq_true_eq, Char.le_def,
    UInt32.le_iff_toNat_le] at h
  rcases h with (⟨hlow, hhigh⟩ | ⟨hlow, hhigh⟩) | rfl
  · have hlow : 97 ≤ c.toNat := hlow
    have hhigh : c.toNat ≤ 122 := hhigh
    omega
  · have hlow : 65 ≤ c.toNat := hlow
    have hhigh : c.toNat ≤ 90 := hhigh
    omega
  · exact .inr rfl

theorem not_letter_of_blank (h : isBlank c = true) : isLetter c = false := by
  have table : ∀ r ∈ blankRanges, r.2 < 65 ∨ (122 < r.1 ∧ r.2 < 181) ∨ 181 < r.1 := by decide
  obtain ⟨r, hr, hlow, hhigh⟩ := (inRanges_iff _ _).mp h
  have hapart := table r hr
  cases hc : isLetter c with
  | false => rfl
  | true =>
    have hletter := toNat_of_isLetter hc
    omega

theorem EndsUnit.not_letter {rest : List Char} (h : EndsUnit rest) :
    ∀ c ∈ rest.head?, isLetter c = false :=
  fun c hc => (h c hc).elim not_letter_of_isDigit not_letter_of_blank

end Characters

section Numbers
variable {ds s : List Char} {a a' : Amount}

theorem Spread.digit_or_blank (h : Spread ds s) : ∀ c ∈ s, Digits.isDigit c = true ∨ isBlank c = true := by
  intro c hc
  cases hb : isBlank c with
  | true => exact .inr rfl
  | false =>
    refine .inl (h.digits c ?_)
    rw [← h.bare]
    exact List.mem_filter.mpr ⟨hc, by rw [hb]; rfl⟩

theorem Spread.not_point (h : Spread ds s) : ∀ c ∈ s, (c != '.') = true := by
  have hpoint : ¬ (Digits.isDigit '.' = true ∨ isBlank '.' = true) := by decide
  intro c hc
  rw [bne_iff_ne]
  rintro rfl
  exact hpoint (h.digit_or_blank _ hc)

theorem Spread.not_letter (h : Spread ds s) : ∀ c ∈ s, (!isLetter c) = true := by
  intro c hc
  rw [(h.digit_or_blank c hc).elim not_letter_of_isDigit not_letter_of_blank]
  rfl

theorem SpellsNumber.not_letter (h : SpellsNumber a s) : ∀ c ∈ s, (!isLetter c) = true := by
  have hdigit : ∀ {d : Char}, Digits.isDigit d = true → (!isLetter d) = true := by
    intro d hd
    rw [not_letter_of_isDigit hd]
    rfl
  cases h with
  | whole hd hs => exact List.forall_mem_cons.mpr ⟨hdigit hd, hs.not_letter⟩
  | @decimal d ds x fs y hd hs hf =>
    have htail : ∀ c ∈ '.' :: y, (!isLetter c) = true :=
      List.forall_mem_cons.mpr ⟨by decide, hf.not_letter⟩
    exact List.forall_mem_cons.mpr ⟨hdigit hd, List.forall_mem_append.mpr ⟨hs.not_letter, htail⟩⟩

theorem SpellsNumber.unique (h : SpellsNumber a s) (h' : SpellsNumber a' s) : a = a' := by
  cases h with
  | whole hd hs =>
    cases h' with
    | whole _ hs' =>
      rw [← hs.bare, ← hs'.bare]
    | decimal =>
      have hmem := hs.not_point '.' (List.mem_append_right _ List.mem_cons_self)
      cases hmem
  | @decimal d ds x fs y hd hs hf hne =>
    generalize hx : d :: (x ++ '.' :: y) = text at h'
    cases h' with
    | whole _ hs' =>
      cases hx
      have hmem := hs'.not_point '.' (List.mem_append_right _ List.mem_cons_self)
      cases hmem
    | decimal _ hs' hf' =>
      have hpoint : ∀ {y : List Char}, ∀ c ∈ ('.' :: y).head?, (c != '.') = false := by
        rintro y c hc
        cases hc
        rfl
      obtain ⟨rfl, hbehind⟩ := List.cons.inj hx
      obtain ⟨rfl, htail⟩ := append_unique hs.not_point hs'.not_point hpoint hpoint hbehind
      obtain ⟨-, rfl⟩ := List.cons.inj htail
      rw [← hs.bare, ← hs'.bare, ← hf.bare, ← hf'.bare]

theorem SpellsNumber.head_not_blank (h : SpellsNumber a s) (rest : List Char) :
    ∀ c ∈ (s ++ rest).head?, isBlank c = false := by
  obtain ⟨d, x, hd, rfl⟩ := h.exists_cons
  intro c hc
  cases hc
  exact not_blank_of_isDigit hd

end Numbers

section Terms
variable {t t' : Term} {ts ts' : List Term} {x x' s rest rest' : List Char}
  {pieces pieces' : List (List Char)}

theorem letter_of_unit? {name : List Char} {u : TimeUnit}
    (h : unit? (String.ofList name) = some u) (rest : List Char) :
    ∀ c ∈ (name ++ rest).head?, (!isLetter c) = false := by
  obtain ⟨hne, hletters⟩ := letters_of_unit? h
  intro c hc
  rw [List.head?_append_of_ne_nil _ hne] at hc
  rw [(hletters c (List.mem_of_mem_head? hc)).letter]
  rfl

/-- A term and what stands behind it are told by the whole. -/
theorem Term.Written.unique (h : t.Written x) (h' : t'.Written x') (hrest : EndsUnit rest)
    (hrest' : EndsUnit rest') (hx : x ++ rest = x' ++ rest') : t = t' ∧ rest = rest' := by
  obtain @⟨a, w, n, name, u, hw, hn, hu⟩ := h
  obtain @⟨a', w', n', name', u', hw', hn', hu'⟩ := h'
  have hname := (letters_of_unit? hu).2
  have hname' := (letters_of_unit? hu').2
  rw [List.append_assoc, List.append_assoc, List.append_assoc, List.append_assoc] at hx
  obtain ⟨-, hnumbers⟩ := append_unique hw hw' (hn.head_not_blank _) (hn'.head_not_blank _) hx
  obtain ⟨rfl, hnames⟩ := append_unique hn.not_letter hn'.not_letter (letter_of_unit? hu rest)
    (letter_of_unit? hu' rest') hnumbers
  obtain ⟨rfl, rfl⟩ := append_unique (fun c hc => (hname c hc).letter)
    (fun c hc => (hname' c hc).letter) hrest.not_letter hrest'.not_letter hnames
  obtain rfl := hn.unique hn'
  obtain rfl := Option.some.inj (hu.symm.trans hu')
  exact ⟨rfl, rfl⟩

theorem endsUnit_pieces {w : List Char} (h : List.Forall₂ Term.Written ts pieces) (hw : Blank w) :
    EndsUnit (pieces.flatten ++ w) := by
  cases h with
  | nil => exact endsUnit_blank hw
  | cons ht _ =>
    rw [List.flatten_cons, List.append_assoc]
    exact ht.endsUnit _

/-- Blanks are no term. -/
theorem Term.Written.not_blank (h : t.Written x) (rest : List Char) : ¬ Blank (x ++ rest) := by
  obtain @⟨a, w, n, name, u, -, hn, -⟩ := h
  obtain ⟨d, y, hd, rfl⟩ := hn.exists_cons
  intro hblank
  have hdigit := hblank d (by simp)
  rw [not_blank_of_isDigit hd] at hdigit
  cases hdigit

theorem unique_of_pieces {w w' : List Char} (h : List.Forall₂ Term.Written ts pieces)
    (h' : List.Forall₂ Term.Written ts' pieces') (hw : Blank w) (hw' : Blank w')
    (hs : pieces.flatten ++ w = pieces'.flatten ++ w') : ts = ts' := by
  induction h generalizing ts' pieces' with
  | nil =>
    cases h' with
    | nil => rfl
    | cons ht' _ =>
      rw [List.flatten_cons, List.append_assoc] at hs
      rw [List.flatten_nil, List.nil_append] at hs
      exact absurd (hs ▸ hw) (ht'.not_blank _)
  | cons ht hts ih =>
    cases h' with
    | nil =>
      rw [List.flatten_cons, List.append_assoc, List.flatten_nil, List.nil_append] at hs
      exact absurd (hs ▸ hw') (ht.not_blank _)
    | cons ht' hts' =>
      rw [List.flatten_cons, List.flatten_cons, List.append_assoc, List.append_assoc] at hs
      obtain ⟨rfl, hs⟩ := ht.unique ht' (endsUnit_pieces hts hw) (endsUnit_pieces hts' hw') hs
      rw [ih hts' hs]

/-- A text spells one sequence of terms at most. -/
theorem Spells.unique (h : Spells ts s) (h' : Spells ts' s) : ts = ts' := by
  obtain ⟨pieces, w, hts, hw, rfl⟩ := h
  obtain ⟨pieces', w', hts', hw', hs⟩ := h'
  exact unique_of_pieces hts hts' hw hw' hs

theorem not_blank_getLast (h : List.Forall₂ Term.Written ts pieces) :
    ∀ c ∈ pieces.flatten.getLast?, isBlank c = false := by
  induction h with
  | nil => exact nofun
  | cons ht _ ih =>
    obtain @⟨a, w, n, name, u, -, -, hu⟩ := ht
    obtain ⟨hne, hletters⟩ := letters_of_unit? hu
    intro c hc
    rw [List.flatten_cons, List.getLast?_append, Option.mem_def, Option.or_eq_some_iff] at hc
    rcases hc with hc | ⟨-, hc⟩
    · exact ih c hc
    · rw [List.getLast?_append_of_ne_nil _ (by simp [hne]), List.getLast?_append_of_ne_nil _ hne] at hc
      exact (hletters c (List.mem_of_mem_getLast? hc)).blank

/-- Blanks around terms belong to none of them. -/
theorem Spells.trimmed (h : Spells ts s) (hne : ts ≠ []) : Spells ts (trimmed s) := by
  obtain ⟨pieces, w, hts, hw, rfl⟩ := h
  cases hts with
  | nil => exact absurd rfl hne
  | @cons t x ts pieces ht hts =>
    obtain @⟨a, before, n, name, u, hbefore, hn, hu⟩ := ht
    have hcore : List.Forall₂ Term.Written (⟨a, name, u⟩ :: ts) ((n ++ name) :: pieces) :=
      .cons (.mk blank_nil hn hu) hts
    have hhead := hn.head_not_blank (name ++ pieces.flatten)
    rw [← List.append_assoc] at hhead
    have htrimmed := trimmed_of_ends hbefore hw hhead (not_blank_getLast hcore)
    rw [List.flatten_cons, List.append_assoc before, htrimmed]
    exact ⟨_, [], hcore, blank_nil, (List.append_nil _).symm⟩

end Terms
end RowGate.Duration.Spelled
