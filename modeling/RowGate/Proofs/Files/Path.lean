import Mathlib.Data.List.Basic
import RowGate.Files.Path
import RowGate.Proofs.Text

/-! # The parts of a path

A path is put together from its parts and falls into them again. The path of a directory that a path
goes through has no characters but those of the whole path, in their order, so that it is a path
whenever the whole one is.
-/
namespace RowGate.Path

structure IsPart (q : String) : Prop where
  ne_nil : q.toList ≠ []
  noSlash : '/' ∉ q.toList

theorem isPart_of_mem_parts {p q : String} (h : q ∈ parts p) : IsPart q := by
  obtain ⟨piece, hpiece, rfl⟩ := List.mem_map.mp h
  obtain ⟨hmem, hne⟩ := List.mem_filter.mp hpiece
  constructor
  · rw [String.toList_ofList]
    simpa using hne
  · rw [String.toList_ofList]
    exact Text.notMem_of_mem_split hmem

def joined (qs : List String) : List Char := ['/'].intercalate (qs.map String.toList)

theorem toList_ofParts (absolute : Bool) (qs : List String) :
    (ofParts absolute qs).toList = (if absolute then ['/'] else []) ++ joined qs := by
  rw [ofParts, String.toList_append, String.toList_intercalate]
  cases absolute <;> rfl

theorem exists_joined_cons (q : String) (qs : List String) :
    ∃ rest, joined (q :: qs) = q.toList ++ rest := by
  cases qs with
  | nil => exact ⟨[], by rw [joined, List.map_singleton, List.intercalate_singleton,
      List.append_nil]⟩
  | cons q' qs =>
    refine ⟨'/' :: joined (q' :: qs), ?_⟩
    rw [joined, List.map_cons, List.map_cons, List.intercalate_cons_cons, List.append_assoc]
    rfl

section OfParts
variable {qs : List String} (h : ∀ q ∈ qs, IsPart q)
include h

theorem split_joined (hne : qs ≠ []) : Text.split '/' (joined qs) = qs.map String.toList := by
  rw [Text.split_eq_splitOn, joined, List.splitOn_intercalate]
  · intro piece hpiece
    obtain ⟨q, hq, rfl⟩ := List.mem_map.mp hpiece
    exact (h q hq).noSlash
  · rwa [ne_eq, List.map_eq_nil_iff]

theorem kept_joined :
    (Text.split '/' (joined qs)).filter (fun part => !part.isEmpty) = qs.map String.toList := by
  rcases eq_or_ne qs [] with rfl | hne
  · rfl
  · rw [split_joined h hne, List.filter_eq_self]
    intro piece hpiece
    obtain ⟨q, hq, rfl⟩ := List.mem_map.mp hpiece
    have hpart := (h q hq).ne_nil
    rwa [Bool.not_eq_true', List.isEmpty_eq_false_iff]

/-- A path falls into the parts that it was put together from. -/
theorem parts_ofParts (absolute : Bool) : parts (ofParts absolute qs) = qs := by
  have hmap : (qs.map String.toList).map String.ofList = qs := by
    rw [List.map_map]
    exact List.map_id'' (fun q => String.ofList_toList) qs
  rw [parts, toList_ofParts]
  cases absolute with
  | false =>
    rw [if_neg Bool.false_ne_true, List.nil_append, kept_joined h, hmap]
  | true =>
    rw [if_pos rfl, List.singleton_append, Text.split, if_pos rfl,
      List.filter_cons_of_neg (by simp), kept_joined h, hmap]

theorem joined_ne_nil (hne : qs ≠ []) : joined qs ≠ [] := by
  cases qs with
  | nil => exact absurd rfl hne
  | cons q qs =>
    obtain ⟨rest, hrest⟩ := exists_joined_cons q qs
    rw [hrest]
    exact List.append_ne_nil_of_left_ne_nil (h q List.mem_cons_self).ne_nil rest

theorem isAbsolute_ofParts (hne : qs ≠ []) (absolute : Bool) :
    isAbsolute (ofParts absolute qs) = absolute := by
  rw [isAbsolute, toList_ofParts]
  cases absolute with
  | true => rfl
  | false =>
    cases qs with
    | nil => exact absurd rfl hne
    | cons q qs =>
      have hq := h q List.mem_cons_self
      obtain ⟨rest, hrest⟩ := exists_joined_cons q qs
      rw [if_neg Bool.false_ne_true, List.nil_append, hrest,
        List.head?_append_of_ne_nil _ hq.ne_nil, beq_eq_false_iff_ne]
      intro hslash
      exact hq.noSlash (List.mem_of_mem_head? hslash)

end OfParts

/-- With fewer parts there are no characters but those that there were. -/
theorem intercalate_sublist (sep : List Char) {ps qs : List (List Char)} (h : qs.Sublist ps) :
    (sep.intercalate qs).Sublist (sep.intercalate ps) := by
  induction h with
  | slnil => exact .refl _
  | @cons qs ps a h ih =>
    rcases eq_or_ne ps [] with rfl | hne
    · rw [List.sublist_nil.mp h, List.intercalate_nil]
      exact List.nil_sublist _
    · rw [List.intercalate_cons_of_ne_nil hne]
      exact ih.trans (List.sublist_append_right _ _)
  | @cons_cons qs ps a h ih =>
    rcases eq_or_ne qs [] with rfl | hqs
    · rw [List.intercalate_singleton]
      rcases eq_or_ne ps [] with rfl | hps
      · rw [List.intercalate_singleton]
      · rw [List.intercalate_cons_of_ne_nil hps, List.append_assoc]
        exact List.sublist_append_left _ _
    · have hps : ps ≠ [] := by
        rintro rfl
        exact hqs (List.sublist_nil.mp h)
      rw [List.intercalate_cons_of_ne_nil hqs, List.intercalate_cons_of_ne_nil hps]
      exact ih.append_left _

/-- The characters of a path that was put together from some parts of another stand in that one. -/
theorem ofParts_sublist {p : String} {qs : List String} (h : qs.Sublist (parts p)) :
    (ofParts (isAbsolute p) qs).toList.Sublist p.toList := by
  have hpieces : ∀ {s : List Char}, (qs.map String.toList).Sublist
      ((Text.split '/' s).filter (fun part => !part.isEmpty)) → (joined qs).Sublist s := by
    intro s hs
    have hjoin := intercalate_sublist ['/'] (hs.trans List.filter_sublist)
    rwa [Text.split_eq_splitOn, List.intercalate_splitOn] at hjoin
  have hqs := h.map String.toList
  rw [parts, List.map_map, show String.toList ∘ String.ofList = id from
    funext fun s => String.toList_ofList, List.map_id] at hqs
  rw [toList_ofParts]
  cases habsolute : isAbsolute p with
  | false => exact hpieces hqs
  | true =>
    obtain ⟨s, hs⟩ : ∃ s, p.toList = '/' :: s :=
      List.head?_eq_some_iff.mp (beq_iff_eq.mp habsolute)
    rw [hs, Text.split, if_pos rfl, List.filter_cons_of_neg (by simp)] at hqs
    rw [hs]
    exact (hpieces hqs).cons_cons '/'

/-- The parts of a path that lead from one place to another. -/
def steps (p : String) : List String := (parts p).filter (· != ".")

theorem steps_sublist (p : String) : (steps p).dropLast.Sublist (parts p) :=
  (List.dropLast_sublist _).trans List.filter_sublist

/-- The nearest parent of a path is what its steps but the last make up. -/
theorem parents_cases (p : String) :
    parents p = [] ∨ ∃ rest, parents p = ofParts (isAbsolute p) (steps p).dropLast :: rest ∧
      (steps p).dropLast ≠ [] := by
  have hparents : parents p = (List.range ((steps p).length - 1)).reverse.map
      fun n => ofParts (isAbsolute p) ((steps p).take (n + 1)) := rfl
  cases hlength : (steps p).length - 1 with
  | zero =>
    rw [hlength, List.range_zero] at hparents
    exact .inl hparents
  | succ n =>
    have hne : (steps p).dropLast ≠ [] := by
      rw [← List.length_pos_iff, List.length_dropLast, hlength]
      exact n.succ_pos
    rw [hlength, List.range_succ, List.reverse_append, List.reverse_singleton,
      List.singleton_append, List.map_cons, ← hlength, ← List.dropLast_eq_take] at hparents
    exact .inr ⟨_, hparents, hne⟩

end RowGate.Path
