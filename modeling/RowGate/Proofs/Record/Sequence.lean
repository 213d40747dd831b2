import RowGate.Catalog
import RowGate.Proofs.Record
import RowGate.Selection
import RowGate.Settings

/-! # Both documents of a record

Beside its object a row has a second document: the array of its values in the order of the members.
Reading takes one value for each member and then the closing bracket, so both documents are read
back as the row. Logins, selections, references to tables and settings are rows of schemas whose
documents can be read.
-/
namespace RowGate
open Json

namespace Record

/-- The start of an item is what stands there, be it the first or behind a comma. -/
theorem nextItem_start {b : UInt8} (rest : Octets) (hspace : isSpace b = false)
    (hclose : letter b ≠ ']') :
    nextItem true (b :: rest) = .ok (some (b :: rest)) ∧
      nextItem false (0x2C :: b :: rest) = .ok (some (b :: rest)) := by
  have hskip : skipBlank (b :: rest) = b :: rest :=
    List.dropWhile_cons_of_neg (by rw [hspace]; exact Bool.false_ne_true)
  have hcomma : skipBlank (0x2C :: b :: rest) = 0x2C :: b :: rest := rfl
  constructor
  · rw [nextItem, hskip]
    simp only [if_neg hclose, if_true]
  · rw [nextItem, hcomma]
    simp only [hskip, if_neg hclose, show letter 0x2C = ',' by decide, Char.reduceEq,
      Bool.false_eq_true, ↓reduceIte]

theorem endsNumber_bracket (rest : Octets) : EndsNumber (0x5D :: rest) := by
  intro b hb
  cases hb
  decide

end Record

namespace Schema
open Record

def values (ms : List Member) (row : Row ms) : List Json := (memberValues ms row).map Prod.snd

theorem values_cons (m : Member) (ms : List Member) (v : m.kind.Carrier) (row : Row ms) :
    values (m :: ms) (v, row) = m.kind.json v :: values ms row := rfl

def sequence (c : Schema) (row : Row c.members) : String :=
  (Json.array (values c.members row)).compact

def behindItem (l : List Json) (rest : Octets) : Octets :=
  Utf8.encode (commaPreceded (l.map chars)) ++ 0x5D :: rest

theorem behindItem_cons (v : Json) (l : List Json) (rest : Octets) :
    behindItem (v :: l) rest = 0x2C :: (Utf8.encode (chars v) ++ behindItem l rest) := by
  rw [behindItem, List.map_cons, encode_commaPreceded_cons]
  rfl

theorem endsNumber_behindItem (l : List Json) (rest : Octets) : EndsNumber (behindItem l rest) := by
  cases l with
  | nil => exact endsNumber_bracket rest
  | cons v l =>
    rw [behindItem_cons]
    exact endsNumber_comma _

section Rows
variable (total : String) (rest : Octets)

/-- One value is read for its member, as the first one or behind a comma. -/
theorem readRow_item {m : Member} {ms : List Member} (hm : m.kind.Readable) (v : m.kind.Carrier)
    (l : List Json) (index : Nat) :
    readRow total (m :: ms) 0 (Utf8.encode (chars (m.kind.json v)) ++ behindItem l rest) =
      (readRow total ms 1 (behindItem l rest)).map (fun (row, s) => ((v, row), s)) ∧
    readRow total (m :: ms) (index + 1) (behindItem (m.kind.json v :: l) rest) =
      (readRow total ms (index + 2) (behindItem l rest)).map (fun (row, s) => ((v, row), s)) := by
  have hread := readValue_written m.kind hm v (endsNumber_behindItem l rest)
  obtain ⟨b, more, hfirst, hspace, hclose, -⟩ := exists_first m.kind v (behindItem l rest)
  obtain ⟨hstart, hnext⟩ := nextItem_start more hspace hclose
  rw [behindItem_cons, hfirst]
  rw [hfirst] at hread
  constructor
  · rw [readRow, show (0 == 0) = true from rfl, hstart]
    simp only [bind, Except.bind, hread]
    cases readRow total ms 1 (behindItem l rest) <;> rfl
  · rw [readRow, show (index + 1 == 0) = false from rfl, hnext]
    simp only [bind, Except.bind, hread]
    cases readRow total ms (index + 2) (behindItem l rest) <;> rfl

/-- The values from some member on are read. -/
theorem readRow_behindItem {ms : List Member} (row : Row ms) (hms : ∀ m ∈ ms, m.kind.Readable)
    (index : Nat) :
    readRow total ms (index + 1) (behindItem (values ms row) rest) = .ok (row, 0x5D :: rest) := by
  induction ms generalizing index with
  | nil => rfl
  | cons m ms ih =>
    obtain ⟨v, row⟩ := row
    have hrow := ih row (fun m hm => hms m (List.mem_cons_of_mem _ hm)) (index + 1)
    rw [values_cons, (readRow_item total rest (hms m List.mem_cons_self) v _ index).2, hrow]
    rfl

theorem readRow_written {ms : List Member} (row : Row ms) (hms : ∀ m ∈ ms, m.kind.Readable) :
    readRow total ms 0 (Utf8.encode (commaSeparated ((values ms row).map chars) ++ [']']) ++ rest) =
      .ok (row, 0x5D :: rest) := by
  cases ms with
  | nil => rfl
  | cons m ms =>
    obtain ⟨v, row⟩ := row
    have hrow := readRow_behindItem total rest row
      (fun m hm => hms m (List.mem_cons_of_mem _ hm)) 0
    rw [values_cons, List.map_cons, commaSeparated_cons, Utf8.encode_append, Utf8.encode_append,
      List.append_assoc, List.append_assoc]
    change readRow total (m :: ms) 0
      (Utf8.encode (chars (m.kind.json v)) ++ behindItem (values ms row) rest) = _
    rw [(readRow_item total rest (hms m List.mem_cons_self) v _ 0).1, hrow]
    rfl

end Rows

/-- Decoding the array document of a row gives the row. -/
theorem decode_sequence (c : Schema) (hc : c.Sound) (row : Row c.members) :
    c.decode (Utf8.octets (c.sequence row)) = .ok row := by
  have hread : c.read (Utf8.octets (c.sequence row)) = .ok (row, []) := by
    have hrow (total : String) := readRow_written total [] row hc.readable
    rw [sequence, compact, Utf8.octets, String.toList_ofList, chars, itemChars_eq, Utf8.encode_cons]
    simp only [List.append_nil] at hrow
    generalize Utf8.encode (commaSeparated ((values c.members row).map chars) ++ [']']) = body
      at hrow
    change (readRow (c.expected ++ " with " ++ toString c.members.length ++ " elements") c.members 0
      body >>= fun read => closeArray read.2 >>= fun rest => .ok (read.1, rest)) = _
    rw [hrow]
    rfl
  rw [decode, hread]
  rfl

/-- A record that is made of a row is decoded from both documents of it. -/
theorem Sound.decoded {α : Type} {c : Schema} (hc : c.Sound) (ofRow : Row c.members → α)
    (row : Row c.members) :
    (c.decode (Utf8.octets (c.encode row))).map ofRow = .ok (ofRow row) ∧
      (c.decode (Utf8.octets (c.sequence row))).map ofRow = .ok (ofRow row) := by
  rw [decode_encode c hc, decode_sequence c hc]
  exact ⟨rfl, rfl⟩

end Schema

theorem Selection.sound : Selection.schema.Sound := by
  constructor
  · decide
  · simp [Selection.schema, Kind.Readable, Kind.isOptional]

theorem TableRef.sound : TableRef.schema.Sound := by
  constructor
  · decide
  · simp [TableRef.schema, Kind.Readable]

theorem Settings.sound : Settings.schema.Sound := by
  constructor
  · decide
  · simp [Settings.schema, Kind.Readable]

/-- Each record is read back from its object document and from its array document, whatever
characters its texts hold and whatever its options leave out. -/
theorem records_read_back :
    (∀ l : Login, Login.decode (Utf8.octets l.encode) = .ok l ∧
      Login.decode (Utf8.octets (Login.schema.sequence l.toRow)) = .ok l) ∧
    (∀ q : Selection, Selection.decode (Utf8.octets q.encode) = .ok q ∧
      Selection.decode (Utf8.octets (Selection.schema.sequence q.toRow)) = .ok q) ∧
    (∀ r : TableRef, TableRef.decode (Utf8.octets r.encode) = .ok r ∧
      TableRef.decode (Utf8.octets (TableRef.schema.sequence r.toRow)) = .ok r) ∧
    (∀ s : Settings, Settings.decode (Utf8.octets s.encode) = .ok s ∧
      Settings.decode (Utf8.octets (Settings.schema.sequence s.toRow)) = .ok s) := by
  refine ⟨fun l => ?_, fun q => ?_, fun r => ?_, fun s => ?_⟩
  · exact Login.sound.decoded Login.ofRow l.toRow
  · exact Selection.sound.decoded Selection.ofRow q.toRow
  · exact TableRef.sound.decoded TableRef.ofRow r.toRow
  · exact Settings.sound.decoded Settings.ofRow s.toRow

end RowGate
