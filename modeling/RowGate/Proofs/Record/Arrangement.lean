import Mathlib
import RowGate.Proofs.Record.Cut

/-! # The arrangement of a document does not matter

A row has for each member what the one entry of its name gives, and the default where there is no
such entry. Nothing else of an object counts: the order of its members, the blanks between its
words and the members of other names, whatever their values are. So two objects with the same known
members are read alike, and leaving a member out is giving its default.
-/
namespace RowGate
open Json

def named (x : String) (l : List Entry) : List Entry := l.filter fun e => e.1 = x

def Holds (m : Member) : List Entry → m.kind.Carrier → Prop
  | [], v => m.default = some v
  | [e], v => m.kind.Gives e.2 v
  | _, _ => False

def Describes : (ms : List Member) → List Entry → Row ms → Prop
  | [], _, _ => True
  | m :: ms, l, (v, row) => Holds m (named m.name l) v ∧ Describes ms l row

namespace Slots
variable {m : Member} {ms : List Member}

def Lands (m : Member) : Option m.kind.Carrier → List Entry → Option m.kind.Carrier → Prop
  | slot, [], slot' => slot' = slot
  | none, [e], slot' => ∃ v, slot' = some v ∧ m.kind.Gives e.2 v
  | _, _, _ => False

theorem lands_full_iff {v : m.kind.Carrier} {es : List Entry} {slot' : Option m.kind.Carrier} :
    Lands m (some v) es slot' ↔ es = [] ∧ slot' = some v := by
  cases es <;> simp [Lands]

theorem putAll_nil_iff {slots slots' : Slots ms} : slots.PutAll ms [] slots' ↔ slots' = slots := by
  constructor
  · intro h
    cases h
    rfl
  · rintro rfl
    exact .nil _

theorem putAll_cons_iff {slots slots' : Slots ms} {e : Entry} {l : List Entry} :
    slots.PutAll ms (e :: l) slots' ↔
      ∃ slots₁, slots.Put ms e slots₁ ∧ slots₁.PutAll ms l slots' := by
  constructor
  · intro h
    cases h with
    | cons h hl => exact ⟨_, h, hl⟩
  · rintro ⟨slots₁, h, hl⟩
    exact .cons h hl

theorem put_iff_of_unknown {slots slots' : Slots ms} {e : Entry}
    (h : ∀ m ∈ ms, m.name ≠ e.1) : slots.Put ms e slots' ↔ slots' = slots := by
  induction ms with
  | nil => exact iff_of_true trivial rfl
  | cons m ms ih =>
    obtain ⟨slot, slots⟩ := slots
    obtain ⟨slot', slots'⟩ := slots'
    rw [Put, if_neg (h m List.mem_cons_self), ih fun m hm => h m (List.mem_cons_of_mem _ hm),
      Prod.mk.injEq]

/-- The entries of a member's name and those of the other members do not meet. -/
theorem putAll_member_iff (hm : ∀ m' ∈ ms, m'.name ≠ m.name) {l : List Entry}
    {slot slot' : Option m.kind.Carrier} {slots slots' : Slots ms} :
    PutAll (m :: ms) (slot, slots) l (slot', slots') ↔
      Lands m slot (named m.name l) slot' ∧ slots.PutAll ms l slots' := by
  induction l generalizing slot slots with
  | nil =>
    rw [putAll_nil_iff, putAll_nil_iff, Prod.mk.injEq]
    exact Iff.rfl
  | cons e l ih =>
    rw [putAll_cons_iff, putAll_cons_iff]
    by_cases he : e.1 = m.name
    · have hunknown : ∀ m' ∈ ms, m'.name ≠ e.1 := fun m' hm' => he ▸ hm m' hm'
      have hnamed : named m.name (e :: l) = e :: named m.name l :=
        List.filter_cons_of_pos (decide_eq_true he)
      simp only [Put, if_pos he.symm, put_iff_of_unknown hunknown, hnamed]
      constructor
      · rintro ⟨⟨slot₁, slots₁⟩, ⟨rfl, ⟨v, rfl, hv⟩, rfl⟩, hall⟩
        obtain ⟨hlands, hrest⟩ := ih.mp hall
        obtain ⟨hnone, rfl⟩ := lands_full_iff.mp hlands
        rw [hnone]
        exact ⟨⟨v, rfl, hv⟩, slots₁, rfl, hrest⟩
      · rintro ⟨hlands, slots₁, rfl, hall⟩
        cases slot with
        | some v => cases (lands_full_iff.mp hlands).1
        | none =>
          cases hrest : named m.name l with
          | cons e' es =>
            rw [hrest] at hlands
            cases hlands
          | nil =>
            rw [hrest] at hlands
            obtain ⟨v, rfl, hv⟩ := hlands
            refine ⟨(some v, slots₁), ⟨rfl, ⟨v, rfl, hv⟩, rfl⟩, ih.mpr ⟨?_, hall⟩⟩
            exact lands_full_iff.mpr ⟨hrest, rfl⟩
    · have hnamed : named m.name (e :: l) = named m.name l :=
        List.filter_cons_of_neg (by simpa using he)
      simp only [Put, if_neg (Ne.symm he), hnamed]
      constructor
      · rintro ⟨⟨slot₁, slots₁⟩, ⟨rfl, hput⟩, hall⟩
        obtain ⟨hlands, hrest⟩ := ih.mp hall
        exact ⟨hlands, slots₁, hput, hrest⟩
      · rintro ⟨hlands, slots₁, hput, hall⟩
        exact ⟨(slot, slots₁), ⟨rfl, hput⟩, ih.mpr ⟨hlands, hall⟩⟩

theorem holds_iff_lands {es : List Entry} {v : m.kind.Carrier} :
    Holds m es v ↔ ∃ slot, Lands m none es slot ∧ (slot <|> m.default) = some v := by
  match es with
  | [] => simp [Holds, Lands]
  | [e] =>
    constructor
    · intro hv
      exact ⟨some v, ⟨v, rfl, hv⟩, rfl⟩
    · rintro ⟨_, ⟨w, rfl, hw⟩, heq⟩
      obtain rfl : w = v := by simpa using heq
      exact hw
  | _ :: _ :: _ => simp [Holds, Lands]

/-- Slots that entries fill from empty ones finish as the row that the entries describe. -/
theorem describes_iff_putAll (hms : (ms.map Member.name).Nodup) {l : List Entry} {row : Row ms} :
    Describes ms l row ↔ ∃ slots, (empty ms).PutAll ms l slots ∧ slots.finish ms = .ok row := by
  induction ms with
  | nil =>
    refine iff_of_true trivial ⟨(), ?_, rfl⟩
    induction l with
    | nil => exact .nil _
    | cons e l ih => exact .cons trivial ih
  | cons m ms ih =>
    obtain ⟨v, row⟩ := row
    rw [List.map_cons, List.nodup_cons] at hms
    have hm : ∀ m' ∈ ms, m'.name ≠ m.name :=
      fun m' hm' heq => hms.1 (heq ▸ List.mem_map_of_mem hm')
    rw [Describes, holds_iff_lands, ih hms.2]
    constructor
    · rintro ⟨⟨slot, hlands, hslot⟩, slots, hall, hfinish⟩
      exact ⟨(slot, slots), (putAll_member_iff hm).mpr ⟨hlands, hall⟩,
        Schema.finish_cons_eq_ok_iff.mpr ⟨hslot, hfinish⟩⟩
    · rintro ⟨⟨slot, slots⟩, hall, hfinish⟩
      obtain ⟨hlands, hall⟩ := (putAll_member_iff hm).mp hall
      obtain ⟨hslot, hfinish⟩ := Schema.finish_cons_eq_ok_iff.mp hfinish
      exact ⟨⟨slot, hlands, hslot⟩, slots, hall, hfinish⟩

end Slots

/-- An object text and its members, told by the characters of their names and the forms of their
values. -/
def Document (l : List Entry) (t : Octets) : Prop :=
  ∃ raw, IsObject raw t ∧ List.Forall₂ (fun m e => Denotes m.1 e.1.toList ∧ m.2 = e.2) raw l

theorem Document.decode_eq_ok_iff {c : Schema} (hc : (c.members.map Member.name).Nodup)
    {l : List Entry} {t : Octets} (h : Document l t) {row : Row c.members} :
    c.decode t = .ok row ↔ Describes c.members l row := by
  obtain ⟨raw, hobject, hnames⟩ := h
  have hl : Entries raw l := hnames.imp fun m e hm => ⟨hm.1.stringText, hm.2⟩
  have hgiven : ∀ slots, c.given t = .ok slots ↔
      (Slots.empty c.members).PutAll c.members l slots := by
    intro slots
    constructor
    · intro hslots
      obtain ⟨raw', l', hobject', hl', hall⟩ := Schema.given_sound hslots hobject.head
      obtain rfl := hobject.unique hobject'
      obtain rfl := hl.unique hl'
      exact hall
    · exact Schema.given_complete hobject hl
  simp only [Schema.decode_eq_ok_iff, hgiven, Slots.describes_iff_putAll hc]

theorem Holds.perm {m : Member} {es es' : List Entry} {v : m.kind.Carrier} (h : Holds m es v)
    (hes : es.Perm es') : Holds m es' v := by
  match es with
  | [] =>
    obtain rfl := hes.nil_eq
    exact h
  | [e] =>
    obtain rfl := List.perm_singleton.mp hes.symm
    exact h
  | _ :: _ :: _ => cases h

def Schema.known (c : Schema) (l : List Entry) : List Entry :=
  l.filter fun e => e.1 ∈ c.members.map Member.name

theorem Schema.named_known {c : Schema} {m : Member} (hm : m ∈ c.members) (l : List Entry) :
    named m.name (c.known l) = named m.name l := by
  rw [named, known, List.filter_filter]
  refine List.filter_congr fun e _ => ?_
  by_cases he : e.1 = m.name
  · simp [he, List.mem_map_of_mem hm]
  · simp [he]

theorem named_without {x y : String} (h : y ≠ x) (l : List Entry) :
    named y (l.filter fun e => e.1 ≠ x) = named y l := by
  rw [named, List.filter_filter]
  refine List.filter_congr fun e _ => ?_
  by_cases he : e.1 = y
  · simp [he, h]
  · simp [he]

theorem named_without_self (x : String) (l : List Entry) :
    named x (l.filter fun e => e.1 ≠ x) = [] := by
  rw [named, List.filter_filter, List.filter_eq_nil_iff]
  simp

def Row.reset (x : String) : (ms : List Member) → Row ms → Row ms
  | [], _ => ()
  | m :: ms, (v, row) => (if m.name = x then m.default.getD v else v, reset x ms row)

section Described
variable {ms : List Member} {l l' : List Entry} {row : Row ms}

theorem Describes.perm (h : Describes ms l row)
    (hl : ∀ m ∈ ms, (named m.name l).Perm (named m.name l')) : Describes ms l' row := by
  induction ms with
  | nil => trivial
  | cons m ms ih =>
    obtain ⟨v, row⟩ := row
    obtain ⟨hv, hrow⟩ := h
    exact ⟨hv.perm (hl m List.mem_cons_self),
      ih hrow fun m' hm' => hl m' (List.mem_cons_of_mem _ hm')⟩

theorem Describes.reset {x : String} (h : Describes ms l row)
    (hl : ∀ m ∈ ms, m.name ≠ x → (named m.name l).Perm (named m.name l')) (hx : named x l' = [])
    (hd : ∀ m ∈ ms, m.name = x → m.default ≠ none) : Describes ms l' (Row.reset x ms row) := by
  induction ms with
  | nil => trivial
  | cons m ms ih =>
    obtain ⟨v, row⟩ := row
    obtain ⟨hv, hrow⟩ := h
    refine ⟨?_, ih hrow (fun m' hm' => hl m' (List.mem_cons_of_mem _ hm'))
      fun m' hm' => hd m' (List.mem_cons_of_mem _ hm')⟩
    by_cases hm : m.name = x
    · obtain ⟨d, hdefault⟩ := Option.ne_none_iff_exists'.mp (hd m List.mem_cons_self hm)
      rw [hm, hx, if_pos rfl, hdefault]
      exact hdefault
    · rw [if_neg hm]
      exact hv.perm (hl m List.mem_cons_self hm)

end Described

section Decoders
variable {α : Type} (c : Schema) (decode : Octets → Except Json.Fault α)

def ReadsAlike : Prop :=
  ∀ l l' t t' v, Document l t → Document l' t' → (c.known l).Perm (c.known l') →
    decode t = .ok v → decode t' = .ok v

/-- Leaving out the member of a name changes what is decoded to its default. -/
def Defaults (x : String) (reset : α → α) : Prop :=
  ∀ l l' t t' v, Document l t → Document l' t' →
    (c.known l').Perm ((c.known l).filter fun e => e.1 ≠ x) →
      decode t = .ok v → decode t' = .ok (reset v)

end Decoders

namespace Schema
variable {c : Schema} (hc : (c.members.map Member.name).Nodup) {α : Type}
  (ofRow : Row c.members → α)
include hc

theorem readsAlike : ReadsAlike c fun s => (c.decode s).map ofRow := by
  intro l l' t t' v ht ht' hperm hv
  obtain ⟨row, hrow, rfl⟩ := map_eq_ok_iff.mp hv
  refine map_eq_ok_iff.mpr ⟨row, (ht'.decode_eq_ok_iff hc).mpr ?_, rfl⟩
  refine ((ht.decode_eq_ok_iff hc).mp hrow).perm fun m hm => ?_
  rw [← named_known hm l, ← named_known hm l']
  exact hperm.filter _

theorem defaults {x : String} {reset : α → α} (hd : ∀ m ∈ c.members, m.name = x → m.default ≠ none)
    (hx : x ∈ c.members.map Member.name)
    (hreset : ∀ row, ofRow (Row.reset x c.members row) = reset (ofRow row)) :
    Defaults c (fun s => (c.decode s).map ofRow) x reset := by
  intro l l' t t' v ht ht' hperm hv
  obtain ⟨row, hrow, rfl⟩ := map_eq_ok_iff.mp hv
  refine map_eq_ok_iff.mpr ⟨_, (ht'.decode_eq_ok_iff hc).mpr ?_, hreset row⟩
  refine ((ht.decode_eq_ok_iff hc).mp hrow).reset (fun m hm hne => ?_) ?_ hd
  · rw [← named_known hm l, ← named_known hm l', ← named_without hne (c.known l)]
    exact (hperm.filter _).symm
  · obtain ⟨m, hm, rfl⟩ := List.mem_map.mp hx
    have hnone := hperm.filter fun e => decide (e.1 = m.name)
    rw [← named_known hm l']
    exact (hnone.trans (.of_eq (named_without_self m.name _))).eq_nil

end Schema

/-- For each record, documents with the same known members are decoded alike, in whatever order they
stand, whatever blanks are between the words and whatever members of other names are among them.
Where a member has a default, leaving it out of a document gives the record with this default. -/
theorem documents_read_alike :
    (ReadsAlike Login.schema Login.decode ∧
      Defaults Login.schema Login.decode "sslModeEnabled" fun l => { l with tls := false }) ∧
    (ReadsAlike Selection.schema Selection.decode ∧
      (Defaults Selection.schema Selection.decode "fields" fun q => { q with columns := [] }) ∧
      (Defaults Selection.schema Selection.decode "where" fun q => { q with predicate := none }) ∧
      Defaults Selection.schema Selection.decode "limit" fun q => { q with limit := none }) ∧
    ReadsAlike TableRef.schema TableRef.decode ∧
    (ReadsAlike Settings.schema Settings.decode ∧
      (Defaults Settings.schema Settings.decode "log_level"
        fun s => { s with logLevel := "info" }) ∧
      (Defaults Settings.schema Settings.decode "redis_url"
        fun s => { s with redisUrl := "redis://127.0.0.1:6379/0" }) ∧
      (Defaults Settings.schema Settings.decode "operation_timeout_secs"
        fun s => { s with operationTimeout := ⟨30, by decide⟩ }) ∧
      (Defaults Settings.schema Settings.decode "connect_timeout_secs"
        fun s => { s with connectTimeout := ⟨10, by decide⟩ }) ∧
      (Defaults Settings.schema Settings.decode "session_key_cost"
        fun s => { s with keyCost := ⟨14, by decide⟩ }) ∧
      Defaults Settings.schema Settings.decode "send_details_on_internal_error"
        fun s => { s with sendDetails := false }) := by
  refine ⟨⟨Schema.readsAlike Login.sound.nodup _, ?_⟩,
    ⟨Schema.readsAlike Selection.sound.nodup _, ?_, ?_, ?_⟩,
    Schema.readsAlike TableRef.sound.nodup _,
    Schema.readsAlike Settings.sound.nodup _, ?_, ?_, ?_, ?_, ?_, ?_⟩
  · exact Schema.defaults Login.sound.nodup _ (by decide) (by decide) fun _ => rfl
  · exact Schema.defaults Selection.sound.nodup _ (by decide) (by decide) fun _ => rfl
  · exact Schema.defaults Selection.sound.nodup _ (by decide) (by decide) fun _ => rfl
  · exact Schema.defaults Selection.sound.nodup _ (by decide) (by decide) fun _ => rfl
  all_goals exact Schema.defaults Settings.sound.nodup _ (by decide) (by decide) fun _ => rfl

/-- An object text is a document when a walk that keeps forms comes to its end. -/
theorem document_of_walk {fuel : Nat} {t rest : Octets} {raw : List (Octets × Form)}
    {l : List Entry} (h : walk forms fuel t = .ok (.object raw, rest)) (hrest : skipBlank rest = [])
    (hl : List.Forall₂ (fun m e => Denotes m.1 e.1.toList ∧ m.2 = e.2) raw l) : Document l t := by
  obtain ⟨f, d, hd, rfl, hs⟩ := walk_sound forms_sound fuel h
  obtain ⟨w, hw, rfl⟩ := exists_blank_of_skipBlank hs
  exact ⟨raw, .mk hw hd fun b hb => List.dropWhile_eq_nil_iff.mp hrest b hb, hl⟩

def isPlain (c : Char) : Bool := c != '"' && c != '\\' && 0x20 ≤ c.toNat

theorem denotes_octets {x : String} (h : x.toList.all isPlain = true) :
    Denotes (Utf8.octets x) x.toList := by
  refine denotes_plain fun c hc => ?_
  simpa [isPlain, and_assoc] using List.all_eq_true.mp h c hc

section Sample

def plainReference : Octets := Utf8.octets "\x7b\"schemaName\":\"a\",\"tableName\":\"b\"\x7d"

/-- The same reference in the other order, with blanks and with two members of another name, one of
them a group with a bracket in a name and half a surrogate pair. -/
def arrangedReference : Octets :=
  Utf8.octets (" \x7b\"x\":[-1e5,\x7b\"]\":\"\\ud800\"\x7d],\"tableName\" : \"b\"," ++
    "\"x\":null,\"schemaName\":\"a\"\x7d\n")

def plainEntries : List Entry := [("schemaName", .string [0x61]), ("tableName", .string [0x62])]

def arrangedEntries : List Entry :=
  [("x", .array [.number true [0x31, 0x65, 0x35],
      .object [([0x5D], .string [0x5C, 0x75, 0x64, 0x38, 0x30, 0x30])]]),
   ("tableName", .string [0x62]), ("x", .null), ("schemaName", .string [0x61])]

theorem document_plain : Document plainEntries plainReference := by
  have hwalk : walk forms (walkFuel plainReference) plainReference =
      .ok (.object (plainEntries.map fun e => (Utf8.octets e.1, e.2)), []) := by
    cbv
  refine document_of_walk hwalk rfl ?_
  exact .cons ⟨denotes_octets rfl, rfl⟩ (.cons ⟨denotes_octets rfl, rfl⟩ .nil)

theorem document_arranged : Document arrangedEntries arrangedReference := by
  have hwalk : walk forms (walkFuel arrangedReference) arrangedReference =
      .ok (.object (arrangedEntries.map fun e => (Utf8.octets e.1, e.2)), [0x0A]) := by
    cbv
  refine document_of_walk hwalk rfl ?_
  exact .cons ⟨denotes_octets rfl, rfl⟩ (.cons ⟨denotes_octets rfl, rfl⟩
    (.cons ⟨denotes_octets rfl, rfl⟩ (.cons ⟨denotes_octets rfl, rfl⟩ .nil)))

theorem documents_read_alike_arranged :
    Document plainEntries plainReference ∧ Document arrangedEntries arrangedReference ∧
      (TableRef.schema.known plainEntries).Perm (TableRef.schema.known arrangedEntries) ∧
      TableRef.decode plainReference = .ok ⟨"a", "b"⟩ ∧
      TableRef.decode arrangedReference = .ok ⟨"a", "b"⟩ := by
  have hknown : (TableRef.schema.known plainEntries).Perm
      (TableRef.schema.known arrangedEntries) := .swap ..
  have hplain : TableRef.decode plainReference = .ok ⟨"a", "b"⟩ := by
    decide +kernel
  exact ⟨document_plain, document_arranged, hknown, hplain,
    documents_read_alike.2.2.1 _ _ _ _ _ document_plain document_arranged hknown hplain⟩

end Sample

end RowGate
