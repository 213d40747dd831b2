import RowGate.Gateway.Postgres
import RowGate.Proofs.Utf8

/-! # Rows of a result

A cell of a JSON column holds a text by its octets alone. The rows of a result give the texts that
their cells hold, one after the other; a cell that holds none is passed over, and the rows around it
are the same as without it.
-/
namespace RowGate

namespace JsonColumn

def Holds : JsonColumn → Cell → String → Prop
  | .plain, cell, t => cell = some (Utf8.octets t)
  | .binary, cell, t => cell = some (0x01 :: Utf8.octets t)

def NotText (raw : Octets) : Prop := ∀ t, raw ≠ Utf8.octets t

/-- The cells that hold no text. -/
inductive Unreadable : JsonColumn → Cell → Prop where
  | null {column : JsonColumn} : Unreadable column none
  | plain {raw : Octets} (h : NotText raw) : Unreadable .plain (some raw)
  | empty : Unreadable .binary (some [])
  | version {v : UInt8} {rest : Octets} (h : v ≠ 0x01) : Unreadable .binary (some (v :: rest))
  | binary {rest : Octets} (h : NotText rest) : Unreadable .binary (some (0x01 :: rest))

def read? (column : JsonColumn) (cell : Cell) : Option String :=
  ((FirstColumn.json column).read cell).toOption.join

section Reading
variable {column : JsonColumn} {cell : Cell} {raw : Octets} {t : String}

theorem plainText_eq_ok_iff : plainText raw = .ok t ↔ raw = Utf8.octets t := by
  rw [← Utf8.text_eq_ok_iff, plainText]
  cases Utf8.text raw <;> simp

theorem text_eq_ok_iff : column.text raw = .ok t ↔ column.Holds (some raw) t := by
  cases column with
  | plain => simp only [text, Holds, plainText_eq_ok_iff, Option.some.injEq]
  | binary =>
    simp only [Holds, Option.some.injEq]
    cases raw with
    | nil => simp [text]
    | cons v rest =>
      rw [text, List.cons.injEq, ← plainText_eq_ok_iff, binaryVersion]
      split
      · next hv => simp [hv]
      · next hv => simp [hv]

theorem read?_some : column.read? (some raw) = (column.text raw).toOption := by
  rw [read?, FirstColumn.read]
  cases column.text raw <;> rfl

theorem read?_eq_some_iff : column.read? cell = some t ↔ column.Holds cell t := by
  cases cell with
  | none => cases column <;> simp [read?, FirstColumn.read, Except.toOption, Holds]
  | some raw => rw [read?_some, toOption_eq_some_iff, text_eq_ok_iff]

theorem unreadable_iff : column.Unreadable cell ↔ ∀ t, ¬ column.Holds cell t := by
  constructor
  · rintro (_ | h | _ | h | h) t ht
    · cases column <;> cases ht
    · exact h t (Option.some.inj ht)
    · cases ht
    · cases ht
      exact h rfl
    · exact h t (List.cons.inj (Option.some.inj ht)).2
  · intro h
    cases cell with
    | none => exact .null
    | some raw =>
      cases column with
      | plain => exact .plain fun t ht => h t (congrArg some ht)
      | binary =>
        cases raw with
        | nil => exact .empty
        | cons v rest =>
          by_cases hv : v = 0x01
          · subst hv
            exact .binary fun t ht => h t (congrArg (some <| 0x01 :: ·) ht)
          · exact .version hv

theorem read?_eq_none_iff : column.read? cell = none ↔ column.Unreadable cell := by
  simp only [unreadable_iff, ← read?_eq_some_iff, Option.eq_none_iff_forall_ne_some, ne_eq]

end Reading
end JsonColumn

/-- The texts are those that the cells hold, in the order of the cells, and no others. -/
inductive Gathered (column : JsonColumn) : List Cell → List String → Prop where
  | nil : Gathered column [] []
  | read {cell : Cell} {cells : List Cell} {t : String} {texts : List String}
      (h : column.Holds cell t) (hrest : Gathered column cells texts) :
      Gathered column (cell :: cells) (t :: texts)
  | skip {cell : Cell} {cells : List Cell} {texts : List String} (h : column.Unreadable cell)
      (hrest : Gathered column cells texts) : Gathered column (cell :: cells) texts

theorem gathered_iff {column : JsonColumn} {cells : List Cell} {texts : List String} :
    Gathered column cells texts ↔ texts = cells.filterMap column.read? := by
  constructor
  · intro h
    induction h with
    | nil => rfl
    | read h _ ih => rw [List.filterMap_cons_some (JsonColumn.read?_eq_some_iff.mpr h), ih]
    | skip h _ ih => rw [List.filterMap_cons_none (JsonColumn.read?_eq_none_iff.mpr h), ih]
  · rintro rfl
    induction cells with
    | nil => exact .nil
    | cons cell cells ih =>
      cases h : column.read? cell with
      | none =>
        rw [List.filterMap_cons_none h]
        exact .skip (JsonColumn.read?_eq_none_iff.mp h) ih
      | some t =>
        rw [List.filterMap_cons_some h]
        exact .read (JsonColumn.read?_eq_some_iff.mp h) ih

theorem fragmentsFrom_texts (index : Nat) (rows : List (Except String (Option String))) :
    (fragmentsFrom index rows).1 = rows.filterMap (·.toOption.join) := by
  induction rows generalizing index with
  | nil => rfl
  | cons row rows ih =>
    rw [fragmentsFrom]
    rcases row with _ | _ | t
    · exact ih (index + 1)
    · exact ih (index + 1)
    · exact congrArg (t :: ·) (ih (index + 1))

namespace Postgres

theorem fetched_texts (column : JsonColumn) (cells : List Cell) :
    (fetched (.ok (.json column, cells))).1 = .ok (cells.filterMap column.read?) := by
  change Except.ok (fragmentsFrom 0 (cells.map (FirstColumn.json column).read)).1 = _
  rw [fragmentsFrom_texts, List.filterMap_map]
  rfl

/-- The rows of a JSON column give just the texts of those cells that hold one, in their order.
Cells that are null, empty or of another version, or whose octets are no text, are passed over, and
the result is what it is without them. The version before a binary cell says nothing: octets behind
it are the same text, or the same fault, as they are in a plain cell. -/
theorem fetched_gathered (column : JsonColumn) :
    (∀ cells, ∃ texts, (fetched (.ok (.json column, cells))).1 = .ok texts ∧
      ∀ texts', Gathered column cells texts' ↔ texts' = texts) ∧
    (∀ before cell after, column.Unreadable cell →
      (fetched (.ok (.json column, before ++ cell :: after))).1 =
        (fetched (.ok (.json column, before ++ after))).1) ∧
    ∀ raw, JsonColumn.binary.text (0x01 :: raw) = JsonColumn.plain.text raw := by
  refine ⟨fun cells => ⟨_, fetched_texts column cells, fun _ => gathered_iff⟩, ?_, fun _ => rfl⟩
  intro before cell after h
  rw [fetched_texts, fetched_texts, List.filterMap_append, List.filterMap_append,
    List.filterMap_cons_none (JsonColumn.read?_eq_none_iff.mpr h)]

theorem fetched_gathered_mixed :
    let front : List Cell := [some (0x01 :: Utf8.octets "1.10"), some [0x02, 0x31], none]
    let overlong : Cell := some [0x01, 0xC0, 0xAF]
    let back : List Cell := [some [], some (0x01 :: Utf8.octets "\"é\"")]
    JsonColumn.binary.Unreadable overlong ∧
    (fetched (.ok (.json .binary, front ++ overlong :: back))).1 =
      (fetched (.ok (.json .binary, front ++ back))).1 ∧
    Gathered .binary (front ++ back) ["1.10", "\"é\""] := by
  intro front overlong back
  obtain ⟨hgathered, hskip, -⟩ := fetched_gathered .binary
  have hunreadable : JsonColumn.binary.Unreadable overlong :=
    JsonColumn.read?_eq_none_iff.mp (by decide)
  obtain ⟨texts, htexts, hall⟩ := hgathered (front ++ back)
  have hread : (fetched (.ok (.json .binary, front ++ back))).1 = .ok ["1.10", "\"é\""] :=
    toOption_eq_some_iff.mp (by decide)
  exact ⟨hunreadable, hskip front overlong back hunreadable,
    (hall _).mpr (Except.ok.inj (hread.symm.trans htexts))⟩

end Postgres
end RowGate
