import RowGate.Proofs.Files.Opening
import RowGate.Proofs.Json.Written
import RowGate.Proofs.Log.Fields
import RowGate.Proofs.Log.Interleaved

/-! # What a log tells of its events

A log that is opened any number of times, with events written between, keeps what was in it and gets
one line for each event. The line is an object that tells the event: what it was emitted with, its
message, and the last value of each of its fields, secrets left out.
-/
namespace RowGate.Log

inductive IsPlain : Recorded → Prop where
  | shown (s : String) : IsPlain (.shown s)
  | text (s : String) : IsPlain (.text s)
  | fault (s : String) : IsPlain (.fault s)
  | signed {i : Int} (hlow : -2 ^ 63 ≤ i) (hhigh : i < 2 ^ 63) : IsPlain (.signed i)
  | unsigned {n : Nat} (h : n < 2 ^ 64) : IsPlain (.unsigned n)
  | flag (b : Bool) : IsPlain (.flag b)

theorem Renders.exact {r : Recorded} {v : Json} (h : Renders r v) (hr : IsPlain r) :
    Json.Exact v := by
  have hbound : wordBound 64 = 2 ^ 64 := rfl
  have hhalf : wordBound 63 = 2 ^ 63 := rfl
  cases h with
  | shown s => exact .string s
  | text s => exact .string s
  | fault s => exact .string s
  | signed n =>
    cases hr with
    | signed hlow hhigh => exact .natural (by omega)
  | below n =>
    cases hr with
    | signed hlow hhigh => exact .negative n.succ_pos (by omega)
  | unsigned n =>
    cases hr with
    | unsigned hn => exact .natural hn
  | flag b => exact .boolean b
  | finite | infinite | infinitelyLow | indeterminate => cases hr

theorem Keeps.exact {name : String} {r : Recorded} {v : Json} (h : Keeps name r v)
    (hr : IsPlain r) : Json.Exact v := by
  cases h with
  | secret => exact .string _
  | plain _ hv => exact hv.exact hr

/-- Numbers of 64 bits and plain values: what a line tells exactly. -/
structure IsExact (o : Origin) (e : Event) : Prop where
  pid : o.pid < 2 ^ 64
  line : ∀ n ∈ o.line, n < 2 ^ 64
  values : ∀ f ∈ e.fields, IsPlain f.2

theorem IsExact.members {o : Origin} {e : Event} (h : IsExact o e) :
    Json.Exact (.object (Entry.ofEvent o e).members) := by
  have hfields : ∀ m ∈ (Entry.ofEvent o e).fields, Json.Exact m.2 :=
    forall_collected fun f hf v hv => hv.exact (h.values f hf)
  exact .object (Entry.forall_members .string (.natural h.pid) (fun n hn => .natural (h.line n hn))
    (.object hfields))

inductive Names : Level → String → Prop where
  | trace : Names .trace "TRACE"
  | debug : Names .debug "DEBUG"
  | info : Names .info "INFO"
  | warn : Names .warn "WARN"
  | error : Names .error "ERROR"

theorem names_name (l : Level) : Names l l.name := by
  cases l with
  | trace => exact .trace
  | debug => exact .debug
  | info => exact .info
  | warn => exact .warn
  | error => exact .error

inductive IsMessage (fs : List Field) : String → Prop where
  | last {f : Field} {m : String} (h : LastOf (fun f => ¬ IsField f) fs f) (hm : Says f m) :
      IsMessage fs m
  | none (h : ∀ f ∈ fs, IsField f) : IsMessage fs ""

/-- The names of the fields, each once, and what was recorded last under each of them; nothing at
all without fields. -/
inductive TellsFields (fs : List Field) : Option Json → Prop where
  | none (h : ∀ f ∈ fs, ¬ IsField f) : TellsFields fs none
  | some {f : Field} {told : List (String × Json)} (hf : f ∈ fs) (hfield : IsField f)
      (hnames : (told.map (·.1)).Nodup)
      (htold : ∀ name v, told.lookup name = some v ↔ Holds fs name v) :
      TellsFields fs (some (.object told))

def memberNames : List String :=
  ["timestamp", "level", "service", "pid", "target", "message", "fields", "span", "file", "line"]

structure Tells (o : Origin) (e : Event) (members : List (String × Json)) : Prop where
  names : (members.map (·.1)).Nodup
  known : ∀ name ∈ members.map (·.1), name ∈ memberNames
  timestamp : members.lookup "timestamp" = some (.string o.timestamp)
  level : ∃ word, members.lookup "level" = some (.string word) ∧ Names e.level word
  service : members.lookup "service" = some (.string o.service)
  pid : members.lookup "pid" = some (.number (.natural o.pid))
  target : members.lookup "target" = some (.string e.target)
  message : ∃ m, members.lookup "message" = some (.string m) ∧ IsMessage e.fields m
  fields : TellsFields e.fields (members.lookup "fields")
  span : members.lookup "span" = o.span.map .string
  file : members.lookup "file" = o.file.map .string
  line : members.lookup "line" = o.line.map fun n => .number (.natural n)

/-- One line without other control octets than its end, which is read as an object that tells an
event. -/
def IsLineOf (o : Origin) (e : Event) (line : Octets) : Prop :=
  ∃ body members, line = body ++ [0x0A] ∧ (∀ b ∈ body, 0x20 ≤ b) ∧
    Json.parse line = .ok (.object members) ∧ Tells o e members

theorem isMessage_collected (fs : List Field) :
    IsMessage fs ((collected fs).message.getD "") := by
  cases hmessage : (collected fs).message with
  | none => exact .none (message_eq_none_iff.mp hmessage)
  | some m =>
    obtain ⟨f, hlast, hm⟩ := message_eq_some_iff.mp hmessage
    exact .last hlast hm

theorem tellsFields_collected (o : Origin) (e : Event) :
    TellsFields e.fields (Entry.ofEvent o e).fieldsMember := by
  have hentry : (Entry.ofEvent o e).fields = (collected e.fields).fields := rfl
  rw [Entry.fieldsMember, hentry]
  split
  · next hempty => exact .none (fields_eq_nil_iff.mp (List.isEmpty_iff.mp hempty))
  · next hsome =>
    have hnot : ¬ ∀ f ∈ e.fields, ¬ IsField f :=
      fun hnone => hsome (List.isEmpty_iff.mpr (fields_eq_nil_iff.mpr hnone))
    push Not at hnot
    obtain ⟨f, hf, hfield⟩ := hnot
    exact .some hf hfield (sorted_fields e.fields).nodup fun name v => lookup_eq_some_iff

theorem memberNames_sublist (e : Entry) : (e.members.map (·.1)).Sublist memberNames := by
  have hoptional : ∀ (name : String) (v : Option Json),
      ((optional name v).map (·.1)).Sublist [name] := by
    intro name v
    cases v with
    | none => exact List.nil_sublist _
    | some v => exact .refl _
  rw [Entry.members, List.map_append, List.map_append, List.map_append, List.map_append]
  exact ((((List.Sublist.refl _).append (hoptional "fields" _)).append (hoptional "span" _)).append
    (hoptional "file" _)).append (hoptional "line" _)

theorem tells_members (o : Origin) (e : Event) : Tells o e (Entry.ofEvent o e).members := by
  have hsublist := memberNames_sublist (Entry.ofEvent o e)
  have hfields : TellsFields e.fields ((Entry.ofEvent o e).members.lookup "fields") := by
    rw [lookup_fields]
    exact tellsFields_collected o e
  refine ⟨hsublist.nodup (by decide), fun name hname => hsublist.mem hname, ?_,
    ⟨_, ?_, names_name e.level⟩, ?_, ?_, ?_, ⟨_, ?_, isMessage_collected e.fields⟩, hfields,
    ?_, ?_, ?_⟩
  all_goals
    rw [lookup_members]
    simp [Entry.heading, List.lookup_cons, Entry.ofEvent]
  · rfl
  · rfl

theorem encode_onOneLine {s : List Char} (h : Text.OnOneLine s) :
    ∀ b ∈ Utf8.encode s, 0x20 ≤ b := by
  intro b hb
  obtain ⟨c, hc, hmem⟩ := List.mem_flatMap.mp hb
  have hlow := h c hc
  rw [UInt8.le_iff_toNat_le]
  change 32 ≤ b.toNat
  rcases Json.toNat_of_mem_encodeChar hmem with hb | hb <;> omega

theorem isLineOf_line {o : Origin} {e : Event} (h : IsExact o e) :
    IsLineOf o e (Utf8.encode (Entry.ofEvent o e).line) := by
  have hline := line_eq (Entry.ofEvent o e)
  have hchars := Json.onOneLine_chars (.object (Entry.ofEvent o e).members)
  refine ⟨_, _, ?_, encode_onOneLine hchars, ?_, tells_members o e⟩
  · rw [hline, Utf8.encode_append]
    rfl
  · rw [hline]
    exact Json.Writes.parse_line h.members.writes

inductive Act where
  | opened
  | emitted (o : Origin) (e : Event)

namespace Act
variable {path : String} {t : FileTree} {content : Octets}

/-- An open that fails ends the run, and so does a write that fails. -/
def run (path : String) (t : FileTree) : Act → Except FileFault FileTree
  | opened =>
    match FileTree.system.openLog path t with
    | (.ok _, t') => .ok t'
    | (.error f, _) => .error f
  | emitted o e => writeAll path t (turnsOf ((), Entry.ofEvent o e))

def event? : Act → Option (Origin × Event)
  | opened => none
  | emitted o e => some (o, e)

def written : Act → Octets
  | opened => []
  | emitted o e => Utf8.encode (Entry.ofEvent o e).line

/-- One step: nothing fails, and what is written stands behind what was there. -/
theorem run_spec (hread : t.read path = .ok content) (hdots : FileTree.endsInDots path = false)
    (a : Act) : ∃ t', run path t a = .ok t' ∧ t'.read path = .ok (content ++ a.written) := by
  cases a with
  | opened =>
    refine ⟨t, ?_, by rw [written, List.append_nil, hread]⟩
    rw [run, FileTree.openLog_of_read hread hdots]
  | emitted o e =>
    obtain ⟨t', hwrite, hread'⟩ := read_writeAll hread (turnsOf ((), Entry.ofEvent o e))
    have hline := flatMap_turnsOf [((), Entry.ofEvent o e)]
    rw [List.flatMap_singleton, List.flatMap_singleton] at hline
    rw [hline] at hread'
    exact ⟨t', hwrite, hread'⟩

/-- All steps: an open adds nothing, and events add their lines. -/
theorem run_all (hread : t.read path = .ok content) (hdots : FileTree.endsInDots path = false)
    (acts : List Act) : ∃ t', acts.foldlM (run path) t = .ok t' ∧
      t'.read path = .ok (content ++ acts.flatMap written) := by
  induction acts generalizing t content with
  | nil => exact ⟨t, rfl, by rw [List.flatMap_nil, List.append_nil, hread]⟩
  | cons a acts ih =>
    obtain ⟨t₁, hrun, hread₁⟩ := run_spec hread hdots a
    obtain ⟨t', hrest, hread'⟩ := ih hread₁
    refine ⟨t', ?_, ?_⟩
    · rw [List.foldlM_cons, hrun]
      exact hrest
    · rw [hread', List.flatMap_cons, List.append_assoc]

theorem flatMap_written (acts : List Act) : acts.flatMap written =
    ((acts.filterMap event?).map fun x => Utf8.encode (Entry.ofEvent x.1 x.2).line).flatten := by
  induction acts with
  | nil => rfl
  | cons a acts ih =>
    rw [List.flatMap_cons, ih]
    cases a <;> rfl

end Act

/-- A log that can be opened keeps what it held, nothing if it was not there. Whatever events are
emitted then, and however often the log is opened between them, nothing fails, and behind what it
held stand lines that tell these events, one for each in their order. -/
theorem log_tells_events {path : String} {t t₁ : FileTree}
    (hopen : FileTree.system.openLog path t = (.ok (), t₁)) {acts : List Act}
    (hexact : ∀ x ∈ acts.filterMap Act.event?, IsExact x.1 x.2) :
    ∃ spot t' lines, t₁.locate path = .ok spot ∧
      (∀ content, t.read path = .ok content → t.contentAt spot = content) ∧
      acts.foldlM (Act.run path) t₁ = .ok t' ∧
      t'.read path = .ok (t.contentAt spot ++ lines.flatten) ∧
      List.Forall₂ (fun x line => IsLineOf x.1 x.2 line) (acts.filterMap Act.event?) lines := by
  obtain ⟨hgrows, hdots, spot, hspot, hread⟩ := FileTree.openLog_spec hopen
  obtain ⟨t', hrun, hread'⟩ := Act.run_all hread hdots acts
  rw [Act.flatMap_written] at hread'
  refine ⟨spot, t', _, hspot, ?_, hrun, hread', ?_⟩
  · intro content hcontent
    exact Except.ok.inj (hread.symm.trans (hgrows.read hcontent))
  · apply List.forall₂_map_right_iff.mpr
    exact List.forall₂_same.mpr fun x hx => isLineOf_line (hexact x hx)

section Sample

def withBreak : Event :=
  .say .warn "pg2json" "two\nlines 😀" [("attempt", .signed (-1)), ("Token", .flag true)]

theorem collected_withBreak : collected withBreak.fields =
    ⟨some "two\nlines 😀",
      [("Token", .string "[redacted]"), ("attempt", .number (.negative 1))]⟩ := by
  rfl

/-- What a line that tells the event is read as. -/
theorem IsLineOf.members_withBreak {o : Origin} {line : Octets} (h : IsLineOf o withBreak line) :
    ∃ members told, Json.parse line = .ok (.object members) ∧
      members.lookup "level" = some (.string "WARN") ∧
      members.lookup "pid" = some (.number (.natural o.pid)) ∧
      members.lookup "message" = some (.string "two\nlines 😀") ∧
      members.lookup "fields" = some (.object told) ∧
      told.lookup "attempt" = some (.number (.negative 1)) ∧
      told.lookup "Token" = some (.string "[redacted]") := by
  obtain ⟨body, members, -, -, hparse, htells⟩ := h
  obtain ⟨word, hlevel, hword⟩ := htells.level
  obtain ⟨m, hmessage, hm⟩ := htells.message
  cases hword
  have hcollected := collected_withBreak
  obtain rfl : m = "two\nlines 😀" := by
    cases hm with
    | last hlast htext =>
      have hlastText := message_eq_some_iff.mpr ⟨_, hlast, htext⟩
      rw [hcollected] at hlastText
      exact (Option.some.inj hlastText).symm
    | none hfields =>
      have hnone := message_eq_none_iff.mpr hfields
      rw [hcollected] at hnone
      cases hnone
  have hfields := htells.fields
  generalize hlookup : members.lookup "fields" = x at hfields
  cases hfields with
  | none hnone =>
    have hnil := fields_eq_nil_iff.mpr hnone
    rw [hcollected] at hnil
    cases hnil
  | @some f told hf hfield hnames htold =>
    have hheld : ∀ name v, (collected withBreak.fields).fields.lookup name = some v →
        told.lookup name = some v :=
      fun name v hv => (htold name v).mpr (lookup_eq_some_iff.mp hv)
    rw [hcollected] at hheld
    exact ⟨members, told, hparse, hlevel, htells.pid, hmessage, hlookup, hheld _ _ (by rfl),
      hheld _ _ (by rfl)⟩

theorem log_tells_events_reopened :
    let before : Octets := [0x7B, 0x7D, 0x0A]
    let t : FileTree := ⟨[(["logs"], .directory), (["logs", "pg.jsonl"], .file before)], []⟩
    let o := (remark 1 "").origin
    let acts := [Act.emitted o withBreak, .opened, .emitted o withBreak]
    FileTree.system.openLog "logs/pg.jsonl" t = (.ok (), t) ∧
    (∀ x ∈ acts.filterMap Act.event?, IsExact x.1 x.2) ∧
    ∃ t' line line', acts.foldlM (Act.run "logs/pg.jsonl") t = .ok t' ∧
      t'.read "logs/pg.jsonl" = .ok (before ++ (line ++ line')) ∧
      ∀ l ∈ [line, line'], IsLineOf o withBreak l ∧
        ∃ members told, Json.parse l = .ok (.object members) ∧
          members.lookup "level" = some (.string "WARN") ∧
          members.lookup "pid" = some (.number (.natural 1)) ∧
          members.lookup "message" = some (.string "two\nlines 😀") ∧
          members.lookup "fields" = some (.object told) ∧
          told.lookup "attempt" = some (.number (.negative 1)) ∧
          told.lookup "Token" = some (.string "[redacted]") := by
  intro before t o acts
  have hopen : FileTree.system.openLog "logs/pg.jsonl" t = (.ok (), t) := by rfl
  have hplain : ∀ f ∈ withBreak.fields, IsPlain f.2 := by
    simp only [withBreak, Event.say]
    intro f hf
    rcases List.mem_cons.mp hf with rfl | hf
    · exact .shown _
    rcases List.mem_cons.mp hf with rfl | hf
    · exact .signed (by decide) (by decide)
    · rw [List.mem_singleton.mp hf]
      exact .flag true
  have hexact : IsExact o withBreak := ⟨by decide, nofun, hplain⟩
  have hacts : ∀ x ∈ acts.filterMap Act.event?, IsExact x.1 x.2 := by
    intro x hx
    rcases List.mem_cons.mp hx with rfl | hx
    · exact hexact
    · rw [List.mem_singleton.mp hx]
      exact hexact
  obtain ⟨spot, t', lines, -, hbefore, hrun, hread, hlines⟩ := log_tells_events hopen hacts
  have hthere : t.read "logs/pg.jsonl" = .ok before := by rfl
  rcases hlines with _ | ⟨hline, _ | ⟨hline', hnil⟩⟩
  cases hnil
  rw [hbefore before hthere] at hread
  refine ⟨hopen, hacts, t', _, _, hrun, by simpa using hread, ?_⟩
  intro l hl
  rcases List.mem_cons.mp hl with rfl | hl
  · exact ⟨hline, hline.members_withBreak⟩
  · rw [List.mem_singleton.mp hl]
    exact ⟨hline', hline'.members_withBreak⟩

end Sample

end RowGate.Log
