import RowGate.Proofs.Json.Documents
import RowGate.Service.Rendering

/-! # Rows make up one array

Rows that are documents are rendered as a document: the array of their values, one item for each row
and in their order. Whatever blanks stand around a row, and whatever commas, brackets and line
breaks stand inside it, the comma behind it ends it.
-/
namespace RowGate.Service
open Json

section
variable {rs : List (List Char)} {fs : List Form}

theorem separatedRows_items (h : List.Forall₂ (fun r f => IsText f (Utf8.encode r)) rs fs)
    (hne : rs ≠ []) : SpellsItems fs (Utf8.encode (separatedRows rs ++ ['\n', ' ', ']'])) := by
  have hline : Blank [0x0A] := blank_singleton rfl
  have hend : Blank [0x0A, 0x20] := hline.append (blank_singleton rfl)
  induction h with
  | nil => exact absurd rfl hne
  | @cons r f rs fs hr hrest ih =>
    cases hrest with
    | nil =>
      rw [separatedRows, Utf8.encode_append]
      exact hr.last hend
    | cons hr' hrest =>
      rw [separatedRows, List.append_assoc, Utf8.encode_append]
      exact hr.more ((ih (List.cons_ne_nil _ _)).behind_blank hline)

theorem arrayChars_isText (h : List.Forall₂ (fun r f => IsText f (Utf8.encode r)) rs fs) :
    IsText (.array fs) (Utf8.encode (arrayChars rs)) := by
  have hspace : Blank [0x20] := blank_singleton rfl
  cases h with
  | nil => exact (Spells.noItems hspace).isText
  | cons hr hrest =>
    have hitems := separatedRows_items (.cons hr hrest) (List.cons_ne_nil _ _)
    exact (Spells.array (hitems.behind_blank hspace)).isText

end

section
variable {rows : List String} {fs : List Form}

/-- Documents have the values of their forms, one by one. -/
theorem parseText_rows (h : List.Forall₂ (fun r f => IsText f (Utf8.octets r)) rows fs)
    (vs : List Json) :
    List.Forall₂ (fun r v => parseText r = .ok v) rows vs ↔ itemValues? fs = some vs := by
  rw [itemValues?_eq_some_iff]
  induction h generalizing vs with
  | nil => simp
  | @cons r f _ _ hr _ ih =>
    have hparse : ∀ v, parseText r = .ok v ↔ f.value? = some v := fun v => hr.parse_eq_ok_iff
    cases vs with
    | nil => simp
    | cons v vs => rw [List.forall₂_cons, List.forall₂_cons, hparse, ih]

/-- Rows that are documents are rendered as a document, which has one form: the array of theirs.
What is read of it is the array of what is read of the rows. -/
theorem arrayText_reads (h : List.Forall₂ (fun r f => IsText f (Utf8.octets r)) rows fs) :
    IsText (.array fs) (Utf8.octets (arrayText rows)) ∧
      (∀ f, IsText f (Utf8.octets (arrayText rows)) → f = .array fs) ∧
      ∀ v, parseText (arrayText rows) = .ok v ↔
        ∃ vs, List.Forall₂ (fun r v => parseText r = .ok v) rows vs ∧ v = .array vs := by
  have hchars : List.Forall₂ (fun r f => IsText f (Utf8.encode r)) (rows.map String.toList) fs :=
    List.forall₂_map_left_iff.mpr h
  have htext : IsText (.array fs) (Utf8.octets (arrayText rows)) := by
    rw [arrayText, Utf8.octets, String.toList_ofList]
    exact arrayChars_isText hchars
  refine ⟨htext, fun f hf => hf.unique htext, fun v => ?_⟩
  rw [parseText, htext.parse_eq_ok_iff, Form.value?, Option.map_eq_some_iff]
  constructor
  · rintro ⟨vs, hvs, rfl⟩
    exact ⟨vs, (parseText_rows h vs).mpr hvs, rfl⟩
  · rintro ⟨vs, hvs, rfl⟩
    exact ⟨vs, (parseText_rows h vs).mp hvs, rfl⟩

end

/-- A row that is a string with the octets that separate rows and close the array. -/
theorem parseText_separators : parseText "\",]\"" = .ok (.string ",]") := by
  have hplain : ∀ c ∈ ",]".toList, c ≠ '"' ∧ c ≠ '\\' ∧ 0x20 ≤ c.toNat :=
    List.forall_mem_cons.mpr ⟨by decide, List.forall_mem_singleton.mpr (by decide)⟩
  have hread := (denotes_plain hplain).stringText []
  obtain ⟨body, hbody, htext, hs⟩ := bodyText?_of_stringText hread
  have hform : (Form.string body).value? = some (.string ",]") := by
    rw [Form.value?, htext]
    rfl
  refine parse_eq_ok_iff.mpr ⟨_, ?_, hform⟩
  have hspells := (Spells.string hbody).isText
  rw [← hs] at hspells
  exact hspells

theorem arrayText_reads_mixed :
    parseText (arrayText ["-7 ", "\",]\"", "\n[ ]"]) =
      .ok (.array [.number (.negative 7), .string ",]", .array []]) := by
  have hnumber : parseText "-7 " = .ok (.number (.negative 7)) := by rfl
  have harray : parseText "\n[ ]" = .ok (.array []) := by rfl
  obtain ⟨f, hf, -⟩ := parse_eq_ok_iff.mp hnumber
  obtain ⟨f', hf', -⟩ := parse_eq_ok_iff.mp parseText_separators
  obtain ⟨f'', hf'', -⟩ := parse_eq_ok_iff.mp harray
  have hrows : List.Forall₂ (fun r f => IsText f (Utf8.octets r)) ["-7 ", "\",]\"", "\n[ ]"]
      [f, f', f''] := .cons hf (.cons hf' (.cons hf'' .nil))
  obtain ⟨-, -, hread⟩ := arrayText_reads hrows
  exact (hread _).mpr ⟨_, .cons hnumber (.cons parseText_separators (.cons harray .nil)), rfl⟩

end RowGate.Service
