import RowGate.Proofs.Json.Written
import RowGate.Proofs.Log.Fields
import RowGate.Proofs.Log.Interleaved

/-! # Secrets do not reach the log

What is recorded under a name that speaks of a secret does not bear on the line of its event: two
events that differ in such values only, of whatever type these are, are written as the same octets.
In place of each of them stands the same word.
-/
namespace RowGate.Log

/-- Events with the same metadata and the same names in the same order, whose values differ under
secret names only. -/
structure AlikeButSecrets (e e' : Event) : Prop where
  level : e.level = e'.level
  target : e.target = e'.target
  fields : List.Forall₂ (fun f f' : Field => f.1 = f'.1 ∧ (IsSecret f.1 ∨ f.2 = f'.2))
    e.fields e'.fields

/-- No word for secrets is in the name of the message. -/
theorem not_isSecret_message : ¬ IsSecret "message" := by
  rw [← isSensitive_iff]
  decide

theorem IsSecret.isField {f : Field} (h : IsSecret f.1) : IsField f := by
  rintro m (_ | _)
  · exact not_isSecret_message h
  · exact not_isSecret_message h

/-- One step: of a secret, nothing but its name is collected. -/
theorem collect_secret (c : Collected) {name : String} (h : IsSecret name) (r : Recorded) :
    collect c (name, r) =
      { c with fields := insertField name (.string "[redacted]") c.fields } := by
  have hfield : IsField (name, r) := IsSecret.isField h
  exact collect_of_isField hfield (.secret h)

theorem collect_alike (c : Collected) {f f' : Field} (hname : f.1 = f'.1)
    (hvalue : IsSecret f.1 ∨ f.2 = f'.2) : collect c f = collect c f' := by
  obtain ⟨name, r⟩ := f
  obtain ⟨name', r'⟩ := f'
  obtain rfl : name = name' := hname
  rcases hvalue with hsecret | hsame
  · rw [collect_secret c hsecret, collect_secret c hsecret]
  · rw [show r = r' from hsame]

/-- All steps: events that are alike but for secrets are collected as the same. -/
theorem collected_alike {fs fs' : List Field}
    (h : List.Forall₂ (fun f f' : Field => f.1 = f'.1 ∧ (IsSecret f.1 ∨ f.2 = f'.2)) fs fs') :
    collected fs = collected fs' := by
  suffices hfrom : ∀ c, fs.foldl collect c = fs'.foldl collect c from hfrom {}
  induction h with
  | nil => exact fun _ => rfl
  | cons hf _ ih =>
    intro c
    rw [List.foldl_cons, List.foldl_cons, collect_alike c hf.1 hf.2]
    exact ih _

theorem AlikeButSecrets.entry {e e' : Event} (h : AlikeButSecrets e e') (o : Origin) :
    Entry.ofEvent o e = Entry.ofEvent o e' := by
  rw [Entry.ofEvent, Entry.ofEvent, h.level, h.target, collected_alike h.fields]

/-- The last value under a secret name is redacted, whichever was recorded last. -/
theorem lookup_secret {fs : List Field} {f : Field} (hf : f ∈ fs) (h : IsSecret f.1) :
    (collected fs).fields.lookup f.1 = some (.string "[redacted]") := by
  have hrecorded : f.1 = f.1 ∧ IsField f := ⟨rfl, h.isField⟩
  obtain ⟨g, before, after, hfs, ⟨hname, hfield⟩, hlast⟩ :=
    exists_lastOf (p := fun g => g.1 = f.1 ∧ IsField g) hf hrecorded
  obtain ⟨name, r⟩ := g
  refine lookup_eq_some_iff.mpr ⟨r, ⟨before, after, ?_, ⟨rfl, ?_⟩, hlast⟩, .secret h⟩
  · rw [hfs, show name = f.1 from hname]
  · rwa [show name = f.1 from hname] at hfield

def Redacts (name : String) (members : List (String × Json)) : Prop :=
  ∃ fields, members.lookup "fields" = some (.object fields) ∧ (fields.map (·.1)).Nodup ∧
    fields.lookup name = some (.string "[redacted]")

/-- Numbers of 64 bits, and values whose texts can be read one by one, secrets excepted. -/
structure IsReadable (o : Origin) (e : Event) : Prop where
  pid : o.pid < 2 ^ 64
  line : ∀ n ∈ o.line, n < 2 ^ 64
  values : ∀ f ∈ e.fields, IsSecret f.1 ∨ f.2.json.Readable

theorem lookup_fields_secret (o : Origin) {e : Event} {f : Field} (hf : f ∈ e.fields)
    (h : IsSecret f.1) : (Entry.ofEvent o e).members.lookup "fields" =
      some (.object (collected e.fields).fields) := by
  have hvalue := lookup_secret hf h
  have hsome : (Entry.ofEvent o e).fields.isEmpty = false := by
    rw [List.isEmpty_eq_false_iff]
    intro hnil
    rw [show (collected e.fields).fields = [] from hnil] at hvalue
    cases hvalue
  rw [lookup_fields, Entry.fieldsMember, hsome, if_neg Bool.false_ne_true]
  rfl

theorem redacts_members (o : Origin) {e : Event} {f : Field} (hf : f ∈ e.fields)
    (h : IsSecret f.1) : Redacts f.1 (Entry.ofEvent o e).members :=
  ⟨_, lookup_fields_secret o hf h, (sorted_fields e.fields).nodup, lookup_secret hf h⟩

/-- A readable line is read as members that redact what the members of its entry do. -/
theorem redacts_read {o : Origin} {e : Event} (hread : IsReadable o e) {f : Field}
    (hf : f ∈ e.fields) (h : IsSecret f.1) : ∃ members,
      Json.parse (Utf8.encode (Entry.ofEvent o e).line) = .ok (.object members) ∧
        Redacts f.1 members := by
  have htext : ∀ s, (Json.string s).Readable := fun s => ⟨_, Json.writes_string s⟩
  have hvalues : ∀ m ∈ (collected e.fields).fields, m.2.Readable := by
    apply forall_collected
    intro g hg v hv
    cases hv with
    | secret => exact htext _
    | plain hopen hv =>
      rw [renders_iff.mp hv]
      exact (hread.values g hg).resolve_left hopen
  obtain ⟨fields, hfields, hnames, hfound⟩ := Json.exists_writes_object hvalues
  have hmembers : ∀ m ∈ (Entry.ofEvent o e).members, m.2.Readable :=
    Entry.forall_members htext ⟨_, Json.writes_natural hread.pid⟩
      (fun n hn => ⟨_, Json.writes_natural (hread.line n hn)⟩) ⟨_, hfields⟩
  obtain ⟨members, hobject, -, hfound'⟩ := Json.exists_writes_object hmembers
  refine ⟨members, ?_, fields, ?_, ?_, ?_⟩
  · rw [line_eq]
    exact hobject.parse_line
  · obtain ⟨v, hv, hwrites⟩ := hfound' "fields" _ (lookup_fields_secret o hf h)
    rw [hv, hwrites.unique hfields]
  · rw [hnames]
    exact (sorted_fields e.fields).nodup
  · obtain ⟨v, hv, hwrites⟩ := hfound f.1 _ (lookup_secret hf h)
    rw [hv, hwrites.unique (Json.writes_string "[redacted]")]

/-- Events that differ in values under secret names only are written as the same octets, when all
else is the same; and for each such name the one value that its line has is the word in its
place. So it is read there, where the other values can be read. -/
theorem secrets_redacted (o : Origin) {e e' : Event} (h : AlikeButSecrets e e') :
    Utf8.encode (Entry.ofEvent o e).line = Utf8.encode (Entry.ofEvent o e').line ∧
    ∀ f ∈ e.fields, IsSecret f.1 →
      (∃ members, (Entry.ofEvent o e).line = Json.chars (.object members) ++ ['\n'] ∧
        Redacts f.1 members) ∧
      (IsReadable o e → ∃ members,
        Json.parse (Utf8.encode (Entry.ofEvent o e).line) = .ok (.object members) ∧
          Redacts f.1 members) := by
  refine ⟨by rw [h.entry o], fun f hf hsecret => ⟨?_, fun hread => redacts_read hread hf hsecret⟩⟩
  exact ⟨_, line_eq _, redacts_members o hf hsecret⟩

section Sample

def withPassword (value : Recorded) : Event :=
  .say .info "pg2json" "opened" [("DB_Password", value), ("ratio", .double (.finite false 3 (-1)))]

theorem readable_fraction : (Recorded.double (.finite false 3 (-1))).json.Readable := by
  have hchars : Decimal.doubleChars (.finite false 3 (-1)) = ['1', '.', '5'] := by decide +kernel
  have hvalue : Json.numeral false [0x31, 0x2E, 0x35] =
      .ok (.double (.finite false (3 * 2 ^ 51) (-52)), []) := by
    decide +kernel
  have hnone : Json.AllDigits [] := List.forall_mem_nil _
  have hnumeral : Json.IsNumeral [0x31, 0x2E, 0x35] :=
    .mk (.digits (b := 0x31) rfl (by decide) hnone) (.mk (.point (b := 0x35) rfl hnone) .none)
  have hencode : Utf8.encode ['1', '.', '5'] = [0x31, 0x2E, 0x35] := by decide
  refine ⟨.number (.double (.finite false (3 * 2 ^ 51) (-52))),
    .number false [0x31, 0x2E, 0x35], ?_, ?_⟩
  · rw [Recorded.json, Json.chars, Json.numeralChars, hchars, hencode]
    exact .natural hnumeral
  · rw [Json.Form.value?, hvalue]
    rfl

theorem isReadable_withPassword (value : Recorded) :
    IsReadable (remark 1 "").origin (withPassword value) := by
  have hsecret : IsSecret "DB_Password" := isSensitive_iff.mp (by decide +kernel)
  refine ⟨by decide, nofun, fun f hf => ?_⟩
  rcases List.mem_cons.mp hf with rfl | hf
  · exact .inr ⟨_, Json.writes_string _⟩
  rcases List.mem_cons.mp hf with rfl | hf
  · exact .inl hsecret
  · rw [List.mem_singleton.mp hf]
    exact .inr readable_fraction

theorem secrets_redacted_password :
    AlikeButSecrets (withPassword (.text "hunter2")) (withPassword (.unsigned 42)) ∧
    IsReadable (remark 1 "").origin (withPassword (.text "hunter2")) ∧
    Utf8.encode (Entry.ofEvent (remark 1 "").origin (withPassword (.text "hunter2"))).line =
      Utf8.encode (Entry.ofEvent (remark 1 "").origin (withPassword (.unsigned 42))).line ∧
    ∃ members fields,
      Json.parse (Utf8.encode
        (Entry.ofEvent (remark 1 "").origin (withPassword (.text "hunter2"))).line) =
          .ok (.object members) ∧
      members.lookup "fields" = some (.object fields) ∧ (fields.map (·.1)).Nodup ∧
      fields.lookup "DB_Password" = some (.string "[redacted]") := by
  have hsecret : IsSecret "DB_Password" := isSensitive_iff.mp (by decide +kernel)
  have halike : AlikeButSecrets (withPassword (.text "hunter2")) (withPassword (.unsigned 42)) :=
    ⟨rfl, rfl, .cons ⟨rfl, .inr rfl⟩ (.cons ⟨rfl, .inl hsecret⟩ (.cons ⟨rfl, .inr rfl⟩ .nil))⟩
  obtain ⟨hsame, hword⟩ := secrets_redacted (remark 1 "").origin halike
  have hmem : ("DB_Password", Recorded.text "hunter2") ∈
      (withPassword (.text "hunter2")).fields := List.mem_cons_of_mem _ List.mem_cons_self
  have hreadable := isReadable_withPassword (.text "hunter2")
  obtain ⟨members, hparse, fields, hfields, hnames, hredacted⟩ := (hword _ hmem hsecret).2 hreadable
  exact ⟨halike, hreadable, hsame, members, fields, hparse, hfields, hnames, hredacted⟩

end Sample

end RowGate.Log
