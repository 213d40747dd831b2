import RowGate.Proofs.Outcome
import RowGate.Proofs.Record

/-! # What a document gives

A document need not give a value for each member: an object may leave members out, and an array may
end early. What it gives are slots, and the row of the document has the defaults where these are
free. An object that was written with the members of some slots gives just these.
-/
namespace RowGate
open Json

namespace Schema
variable {ms : List Member} {s rest : Octets}

def readSlots : (ms : List Member) → (index : Nat) → Octets → Except Fault (Slots ms × Octets)
  | [], _, s => .ok ((), s)
  | m :: ms, index, s => do
    match ← Record.nextItem (index == 0) s with
    | some s => do
      let (v, s) ← Record.readValue m.kind s
      let (slots, s) ← readSlots ms (index + 1) s
      .ok ((some v, slots), s)
    | none => do
      let (slots, s) ← readSlots ms (index + 1) s
      .ok ((none, slots), s)

def readGiven (c : Schema) (s : Octets) : Except Fault (Slots c.members × Octets) :=
  match skipBlank s with
  | [] => .error .ended
  | b :: rest =>
    if letter b = '[' then do
      let (slots, rest) ← readSlots c.members 0 rest
      let rest ← Record.closeArray rest
      .ok (slots, rest)
    else if letter b = '\x7b' then
      readMembers c.members (rest.length + 1) true (Slots.empty c.members) rest
    else Record.mismatch c.expected (b :: rest)

def given (c : Schema) (s : Octets) : Except Fault (Slots c.members) := finished (c.readGiven s)

theorem finish_cons_eq_ok_iff {m : Member} {slot : Option m.kind.Carrier} {slots : Slots ms}
    {v : m.kind.Carrier} {row : Row ms} :
    Slots.finish (m :: ms) (slot, slots) = .ok (v, row) ↔
      (slot <|> m.default) = some v ∧ slots.finish ms = .ok row := by
  rw [Slots.finish]
  cases slot <|> m.default with
  | none => simp
  | some w =>
    simp only [bind_eq_ok_iff, Except.ok.injEq, Prod.mk.injEq, Option.some.injEq]
    constructor
    · rintro ⟨row', hrow, rfl, rfl⟩
      exact ⟨rfl, hrow⟩
    · rintro ⟨rfl, hrow⟩
      exact ⟨row, hrow, rfl, rfl⟩

/-- A member with a default never fails a row. -/
theorem finish_default {m : Member} {d : m.kind.Carrier} (hd : m.default = some d)
    (slot : Option m.kind.Carrier) {slots : Slots ms} {row : Row ms}
    (h : slots.finish ms = .ok row) :
    Slots.finish (m :: ms) (slot, slots) = .ok (slot.getD d, row) := by
  refine finish_cons_eq_ok_iff.mpr ⟨?_, h⟩
  rw [hd]
  cases slot <;> rfl

/-- The value of a member is the next item, or else its default. -/
theorem readRow_cons_eq_ok_iff {total : String} {m : Member} {index : Nat} {v : m.kind.Carrier}
    {row : Row ms} :
    readRow total (m :: ms) index s = .ok ((v, row), rest) ↔
      (∃ s', Record.nextItem (index == 0) s = .ok (some s') ∧
        ∃ w s'', Record.readValue m.kind s' = .ok (w, s'') ∧
          readRow total ms (index + 1) s'' = .ok (row, rest) ∧ w = v) ∨
      Record.nextItem (index == 0) s = .ok none ∧
        readRow total ms (index + 1) s = .ok (row, rest) ∧ m.default = some v := by
  rw [readRow]
  cases Record.nextItem (index == 0) s with
  | error f => simp [bind_eq_ok_iff]
  | ok item =>
    cases item with
    | some s' => simp [bind_eq_ok_iff]
    | none => cases m.default <;> simp [bind_eq_ok_iff]

/-- The slot of a member holds the next item, or else nothing. -/
theorem readSlots_cons_eq_ok_iff {m : Member} {index : Nat} {slot : Option m.kind.Carrier}
    {slots : Slots ms} :
    readSlots (m :: ms) index s = .ok ((slot, slots), rest) ↔
      (∃ s', Record.nextItem (index == 0) s = .ok (some s') ∧
        ∃ w s'', Record.readValue m.kind s' = .ok (w, s'') ∧
          readSlots ms (index + 1) s'' = .ok (slots, rest) ∧ some w = slot) ∨
      Record.nextItem (index == 0) s = .ok none ∧
        readSlots ms (index + 1) s = .ok (slots, rest) ∧ none = slot := by
  rw [readSlots]
  cases Record.nextItem (index == 0) s with
  | error f => simp [bind_eq_ok_iff]
  | ok item => cases item <;> simp [bind_eq_ok_iff]

theorem readRow_eq_ok_iff (total : String) (ms : List Member) (index : Nat) (s : Octets)
    (row : Row ms) (rest : Octets) :
    readRow total ms index s = .ok (row, rest) ↔
      ∃ slots, readSlots ms index s = .ok (slots, rest) ∧ slots.finish ms = .ok row := by
  induction ms generalizing index s with
  | nil => simp [readRow, readSlots, Slots.finish]
  | cons m ms ih =>
    obtain ⟨v, row⟩ := row
    rw [readRow_cons_eq_ok_iff]
    constructor
    · rintro (⟨s', hitem, w, s'', hvalue, hrow, rfl⟩ | ⟨hitem, hrow, hdefault⟩)
      · obtain ⟨slots, hslots, hfinish⟩ := (ih (index + 1) s'' row).mp hrow
        exact ⟨(some w, slots),
          readSlots_cons_eq_ok_iff.mpr (.inl ⟨s', hitem, w, s'', hvalue, hslots, rfl⟩),
          finish_cons_eq_ok_iff.mpr ⟨rfl, hfinish⟩⟩
      · obtain ⟨slots, hslots, hfinish⟩ := (ih (index + 1) s row).mp hrow
        exact ⟨(none, slots), readSlots_cons_eq_ok_iff.mpr (.inr ⟨hitem, hslots, rfl⟩),
          finish_cons_eq_ok_iff.mpr ⟨hdefault, hfinish⟩⟩
    · rintro ⟨⟨slot, slots⟩, hread, hall⟩
      obtain ⟨hslot, hfinish⟩ := finish_cons_eq_ok_iff.mp hall
      obtain ⟨s', hitem, w, s'', hvalue, hslots, rfl⟩ | ⟨hitem, hslots, rfl⟩ :=
        readSlots_cons_eq_ok_iff.mp hread
      · have hrow := (ih (index + 1) s'' row).mpr ⟨slots, hslots, hfinish⟩
        exact .inl ⟨s', hitem, w, s'', hvalue, hrow, by simpa using hslot⟩
      · have hrow := (ih (index + 1) s row).mpr ⟨slots, hslots, hfinish⟩
        exact .inr ⟨hitem, hrow, by simpa using hslot⟩

theorem mismatch_ne_ok {α : Type} (expected : String) (s : Octets) (p : α × Octets) :
    Record.mismatch expected s ≠ .ok p := by
  unfold Record.mismatch
  split
  · simp
  · split <;> simp [bind_eq_ok_iff]
    split <;> simp [bind_eq_ok_iff]

theorem read_eq_ok_iff (c : Schema) (s : Octets) (row : Row c.members) (rest : Octets) :
    c.read s = .ok (row, rest) ↔
      ∃ slots, c.readGiven s = .ok (slots, rest) ∧ slots.finish c.members = .ok row := by
  unfold read readGiven
  cases skipBlank s with
  | nil => simp
  | cons b body =>
    by_cases harray : letter b = '['
    · simp only [if_pos harray, bind_eq_ok_iff, readRow_eq_ok_iff, Prod.exists, Except.ok.injEq,
        Prod.mk.injEq]
      constructor
      · rintro ⟨row, rest', ⟨slots, hslots, hfinish⟩, rest, hclose, rfl, rfl⟩
        exact ⟨slots, ⟨slots, rest', hslots, rest, hclose, rfl, rfl⟩, hfinish⟩
      · rintro ⟨slots, ⟨slots', rest', hslots, rest, hclose, rfl, rfl⟩, hfinish⟩
        exact ⟨row, rest', ⟨slots', hslots, hfinish⟩, rest, hclose, rfl, rfl⟩
    · by_cases hobject : letter b = '\x7b'
      · simp only [if_neg harray, if_pos hobject, bind_eq_ok_iff, Prod.exists, Except.ok.injEq,
          Prod.mk.injEq]
        constructor
        · rintro ⟨slots, rest, hslots, row, hfinish, rfl, rfl⟩
          exact ⟨slots, hslots, hfinish⟩
        · rintro ⟨slots, hslots, hfinish⟩
          exact ⟨slots, rest, hslots, row, hfinish, rfl, rfl⟩
      · simp [if_neg harray, if_neg hobject, mismatch_ne_ok]

/-- A document is decoded to the row of what it gives. -/
theorem decode_eq_ok_iff (c : Schema) (s : Octets) (row : Row c.members) :
    c.decode s = .ok row ↔ ∃ slots, c.given s = .ok slots ∧ slots.finish c.members = .ok row := by
  simp only [decode, given, finished_eq_ok_iff, read_eq_ok_iff]
  constructor
  · rintro ⟨rest, ⟨slots, hread, hfinish⟩, hrest⟩
    exact ⟨slots, ⟨rest, hread, hrest⟩, hfinish⟩
  · rintro ⟨slots, ⟨rest, hread, hrest⟩, hfinish⟩
    exact ⟨rest, ⟨slots, hread, hfinish⟩, hrest⟩

def document (c : Schema) (slots : Slots c.members) : String :=
  (Json.object (slots.entries c.members)).compact

/-- A document gives what it was written with. -/
theorem given_document (c : Schema) (hc : c.Sound) (slots : Slots c.members) :
    c.given (Utf8.octets (c.document slots)) = .ok slots := by
  have hmembers := readMembers_written
    (Slots.filled_entries c.members slots hc.readable hc.nodup)
  rw [given, readGiven, document, compact, Utf8.octets, String.toList_ofList, chars, memberChars_eq,
    Utf8.encode_cons]
  generalize Utf8.encode (commaSeparated ((slots.entries c.members).map memberText) ++
    ['\x7d']) = body at hmembers
  change finished (readMembers c.members (body.length + 1) true (Slots.empty c.members) body) = _
  rw [hmembers]
  rfl

end Schema
end RowGate
