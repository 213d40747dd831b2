import Mathlib.Data.List.TakeWhile
import RowGate.Proofs.Digits
import RowGate.Text.Blank
import RowGate.Text.Lowercase
import RowGate.Text.Split

/-! # Pieces of texts

Where a text is cut, what trimming leaves of it, and what occurs in it. A text is cut in one way
where a property of characters first fails; words without a character do not reach over it; and
words occur as they are in a text that was mapped character by character, as long as nothing else is
mapped to theirs.
-/
namespace RowGate.Text

/-- A text is cut in one way where a property of characters first fails. -/
theorem append_unique {p : Char → Bool} {a a' b b' : List Char} (ha : ∀ c ∈ a, p c = true)
    (ha' : ∀ c ∈ a', p c = true) (hb : ∀ c ∈ b.head?, p c = false)
    (hb' : ∀ c ∈ b'.head?, p c = false) (h : a ++ b = a' ++ b') : a = a' ∧ b = b' := by
  have hstop : ∀ {b : List Char}, (∀ c ∈ b.head?, p c = false) → b.takeWhile p = [] := by
    intro b hb
    cases b with
    | nil => rfl
    | cons c b => exact List.takeWhile_cons_of_neg (by simp [hb c rfl])
  have hfront := congrArg (List.takeWhile p) h
  rw [List.takeWhile_append_of_pos ha, List.takeWhile_append_of_pos ha', hstop hb, hstop hb',
    List.append_nil, List.append_nil] at hfront
  subst hfront
  exact ⟨rfl, List.append_cancel_left h⟩

/-- So it is where a property last fails. -/
theorem append_unique_of_last {p : Char → Bool} {a a' b b' : List Char}
    (ha : ∀ c ∈ a.getLast?, p c = false) (ha' : ∀ c ∈ a'.getLast?, p c = false)
    (hb : ∀ c ∈ b, p c = true) (hb' : ∀ c ∈ b', p c = true) (h : a ++ b = a' ++ b') :
    a = a' ∧ b = b' := by
  have hreverse : b.reverse ++ a.reverse = b'.reverse ++ a'.reverse := by
    rw [← List.reverse_append, ← List.reverse_append, h]
  rw [← List.head?_reverse] at ha ha'
  obtain ⟨hback, hfront⟩ := append_unique (fun c hc => hb c (List.mem_reverse.mp hc))
    (fun c hc => hb' c (List.mem_reverse.mp hc)) ha ha' hreverse
  exact ⟨List.reverse_inj.mp hfront, List.reverse_inj.mp hback⟩

theorem split_eq_splitOn (sep : Char) (s : List Char) : split sep s = s.splitOn sep := by
  induction s with
  | nil => rw [split, List.splitOn_nil]
  | cons c s ih =>
    rw [split, List.splitOn_cons_eq_if_modifyHead, ih]
    by_cases hc : c = sep
    · rw [if_pos hc, if_pos (beq_iff_eq.mpr hc)]
    · rw [if_neg hc, if_neg fun h => hc (beq_iff_eq.mp h)]
      cases hrest : s.splitOn sep with
      | nil => exact absurd hrest (List.splitOn_ne_nil sep s)
      | cons piece pieces => rfl

theorem notMem_of_mem_split {sep : Char} {s piece : List Char} (h : piece ∈ split sep s) :
    sep ∉ piece := by
  induction s generalizing piece with
  | nil =>
    rw [List.mem_singleton.mp h]
    exact List.not_mem_nil
  | cons c s ih =>
    rw [split] at h
    split at h
    · rcases List.mem_cons.mp h with rfl | h
      · exact List.not_mem_nil
      · exact ih h
    · next hc =>
      split at h
      · next hnil => exact absurd hnil (split_ne_nil sep s)
      · next first rest hsplit =>
        rw [hsplit] at ih
        rcases List.mem_cons.mp h with rfl | h
        · exact List.not_mem_cons_of_ne_of_not_mem (Ne.symm hc) (ih List.mem_cons_self)
        · exact ih (List.mem_cons_of_mem _ h)

theorem not_blank_of_isDigit {c : Char} (h : Digits.isDigit c = true) : isBlank c = false := by
  have table : ∀ k < 10, isBlank (Digits.ofValue k) = false := by decide
  obtain ⟨k, hk, rfl⟩ := Digits.exists_of_isDigit h
  exact table k hk

/-- Blanks around a text without blanks fall away. -/
theorem trimmed_surrounded {before s after : List Char} (hb : ∀ c ∈ before, isBlank c = true)
    (ha : ∀ c ∈ after, isBlank c = true) (hs : ∀ c ∈ s, isBlank c = false) :
    trimmed (before ++ s ++ after) = s :=
  trimmed_of_ends hb ha (fun c hc => hs c (List.mem_of_mem_head? hc))
    fun c hc => hs c (List.mem_of_mem_getLast? hc)

theorem trimmed_of_not_blank {s : List Char} (hs : ∀ c ∈ s, isBlank c = false) : trimmed s = s := by
  have hbare := trimmed_surrounded (List.forall_mem_nil _) (List.forall_mem_nil _) hs
  rwa [List.nil_append, List.append_nil] at hbare

theorem trimmed_eq_nil_iff {cs : List Char} : trimmed cs = [] ↔ ∀ c ∈ cs, isBlank c := by
  have hkept : trimmed cs = [] ↔ ∀ c ∈ trimStart cs, isBlank c := by
    rw [trimmed, trimEnd, List.reverse_eq_nil_iff, List.dropWhile_eq_nil_iff]
    simp only [List.mem_reverse]
  rw [hkept]
  refine ⟨fun h => ?_, fun h c hc => h c ((List.dropWhile_sublist isBlank).mem hc)⟩
  rw [← List.dropWhile_eq_nil_iff]
  by_contra hne
  -- What trimming at the start keeps begins with a character that is not blank.
  have hhead := List.head_dropWhile_not isBlank hne
  rw [h _ (List.head_mem hne)] at hhead
  cases hhead

theorem trim_eq_empty_iff (s : String) : trim s = "" ↔ isBlankText s = true := by
  rw [trim, isBlankText, List.all_eq_true, ← trimmed_eq_nil_iff, ← String.toList_eq_nil_iff,
    String.toList_ofList]

section Words
variable {words a b s : List Char} {x : Char}

theorem occursIn_iff : occursIn words s = true ↔ words <:+: s := by
  induction s with
  | nil => rw [occursIn, List.isEmpty_iff, List.infix_nil]
  | cons c s ih =>
    rw [occursIn, Bool.or_eq_true, List.isPrefixOf_iff_prefix, ih, List.infix_cons_iff]

/-- Words do not reach over a character that they lack. -/
theorem infix_append_cons_iff (hx : x ∉ words) :
    words <:+: a ++ x :: b ↔ words <:+: a ∨ words <:+: b := by
  have hstart : ∀ {front : List Char}, front <+: x :: b → x ∉ front → front = [] := by
    intro front hfront hnot
    rcases List.prefix_cons_iff.mp hfront with rfl | ⟨t, rfl, -⟩
    · rfl
    · exact absurd List.mem_cons_self hnot
  rw [List.infix_append_iff]
  constructor
  · rintro (h | h | ⟨front, back, rfl, hfront, hback⟩)
    · exact .inl h
    · rcases List.infix_cons_iff.mp h with h | h
      · rw [hstart h hx]
        exact .inr List.nil_infix
      · exact .inr h
    · rw [hstart hback fun hmem => hx (List.mem_append_right _ hmem), List.append_nil]
      exact .inl hfront.isInfix
  · rintro (h | h)
    · exact .inl h
    · exact .inr (.inl (List.infix_cons h))

theorem infix_map_iff {f : Char → Char} (hf : ∀ c ∈ words, ∀ d, f d = c ↔ d = c) :
    words <:+: s.map f ↔ words <:+: s := by
  have hwords : ∀ {t : List Char}, t.map f = words → t = words := by
    intro t ht
    induction words generalizing t with
    | nil => exact List.map_eq_nil_iff.mp ht
    | cons c words ih =>
      obtain ⟨d, t, rfl, hd, ht⟩ := List.map_eq_cons_iff.mp ht
      rw [(hf c List.mem_cons_self d).mp hd,
        ih (fun c hc => hf c (List.mem_cons_of_mem _ hc)) ht]
  have hself : words.map f = words :=
    (List.map_congr_left fun c hc => (hf c hc c).mpr rfl).trans (List.map_id words)
  constructor
  · intro h
    obtain ⟨t, ht, hmap⟩ := List.infix_map_iff.mp h
    rwa [hwords hmap.symm] at ht
  · intro h
    have hmap := h.map f
    rwa [hself] at hmap

end Words
end RowGate.Text
