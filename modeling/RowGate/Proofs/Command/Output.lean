import RowGate.Proofs.Command.Tiers
import RowGate.Proofs.Json.Written
import RowGate.Proofs.Service.Rendering

/-! # What a command prints

A command whose operation has an outcome prints one document, and what is read of it is the outcome:
a message, a session key, the names of tables in their order, or the text that was made of the rows.
That text is a document in its turn, and what is read of it are the rows, in their order too.
-/
namespace RowGate

namespace Service
variable {σ : Type}

def fetches : Pick (List String)
  | .query _, _, some (.ok rows) => some rows
  | _, _, _ => none

def rendered : Result (Except ServiceFault String) → Post σ (List String) := fun r _ _ g =>
  ∀ text, r = .value (.ok text) → ∃ rows, g = [rows] ∧ text = arrayText rows

theorem fetchRows_rendered (sv : Service) (w : World σ) (s : σ) (t : Instant) (key secret : String)
    (q : Selection) : Leads fetches w (sv.fetchRows key secret q).run s t [] rendered := by
  unfold Service.fetchRows
  refine Leads.check_then (fun _ _ _ h => nomatch h) ?_
  intro _ _
  rw [leads_deadline_then, leads_then]
  refine Leads.loadSession_unpicked sv (fun _ _ => rfl) (fun _ _ _ => rfl) ?_
  intro loaded s₁ t₁
  cases loaded with
  | error f => exact fun _ h => nomatch h
  | ok login =>
  simp only [forward]
  rw [leads_told_then]
  refine Leads.connect_then sv (w.keeps_true _) trivial (fun _ _ _ _ _ _ _ h => nomatch h) ?_
  intro s₂ t₂ _
  rw [leads_then, leads_attempt, leads_bounded]
  refine Leads.ask (by simp) (w.keeps_true _) trivial ?_
  intro s₃ t₃ a _
  simp only [onward, forward]
  refine Leads.release_then (w.keeps_true _) trivial ?_
  intro s₄ t₄ b _
  refine Leads.check_then (fun _ _ _ h => nomatch h) ?_
  intro rows hrows
  -- The rows are those of the answer, and no other call of the run is picked.
  obtain rfl := verdict_eq_ok_iff.mp hrows
  rw [leads_told_then, leads_ok]
  intro text htext
  cases htext
  exact ⟨rows, rfl, rfl⟩

/-- A text is the array of some rows: if these are documents it is the document of their array, and
it is read just where all of them are, as the array of what is read of them. -/
def IsArrayOf (rows : List String) (text : String) : Prop :=
  ∀ fs, List.Forall₂ (fun row f => Json.IsText f (Utf8.octets row)) rows fs →
    Json.IsText (.array fs) (Utf8.octets text) ∧
    ∀ v, Json.parseText text = .ok v ↔
      ∃ vs, List.Forall₂ (fun row v => Json.parseText row = .ok v) rows vs ∧ v = .array vs

theorem isArrayOf_arrayText (rows : List String) : IsArrayOf rows (arrayText rows) := by
  intro fs hrows
  have hchars : List.Forall₂ (fun r f => Json.IsText f (Utf8.encode r))
      (rows.map String.toList) fs := List.forall₂_map_left_iff.mpr hrows
  have htext : Json.IsText (.array fs) (Utf8.octets (arrayText rows)) := by
    rw [arrayText, Utf8.octets, String.toList_ofList]
    exact arrayChars_isText hchars
  refine ⟨htext, fun v => ?_⟩
  rw [Json.parseText, htext.parse_eq_ok_iff, Json.Form.value?, Option.map_eq_some_iff]
  constructor
  · rintro ⟨vs, hvs, hv⟩
    exact ⟨vs, (parseText_rows hrows vs).mpr hvs, hv.symm⟩
  · rintro ⟨vs, hvs, hv⟩
    exact ⟨vs, (parseText_rows hrows vs).mp hvs, hv.symm⟩

end Service

namespace Command
open Service

/-- The one member of the document that an outcome is printed as, after a run in which queries were
answered with some rows. -/
inductive Prints (details : Bool) (answers : List (List String)) :
    (c : Command) → Except ServiceFault c.request.Value → String → Json → Prop where
  | failure {c : Command} (f : ServiceFault) :
      Prints details answers c (.error f) "message" (.string (f.shown details))
  | connected (login : Login) : Prints details answers (.testConnection login) (.ok ()) "message"
      (.string "We have successfully established a connection with your database.")
  | opened (login : Login) (secret duration key : String) :
      Prints details answers (.openSession login secret duration) (.ok key)
        "sessionKey" (.string key)
  | listed (key secret : String) (tables : List String) :
      Prints details answers (.listTables key secret) (.ok tables)
        "tables" (.array (tables.map .string))
  | fetched (key secret : String) (selection : Selection) {text : String} {rows : List String}
      (hrows : answers = [rows]) (htext : IsArrayOf rows text) :
      Prints details answers (.getJson key secret selection) (.ok text) "result" (.string text)
  | closed (key : String) :
      Prints details answers (.closeSession key) (.ok ()) "message" (.string "Session closed.")

/-- What is printed of fetched rows is their array. -/
theorem Prints.isArrayOf {details : Bool} {answers : List (List String)} {key secret : String}
    {selection : Selection} {text name : String} {value : Json}
    (h : Prints details answers (.getJson key secret selection) (.ok text) name value) :
    ∃ rows, answers = [rows] ∧ IsArrayOf rows text ∧ name = "result" ∧ value = .string text := by
  cases h with
  | fetched _ _ _ hrows htext => exact ⟨_, hrows, htext, rfl, rfl⟩

/-- A reply prints one member, whatever came of the operation. -/
theorem exists_prints {σ : Type} (sv : Service) (details : Bool) (c : Command) (w : World σ) (s : σ)
    (t : Instant) {r : Except ServiceFault c.request.Value}
    (h : (c.request.serve sv w s t).result = .value r) :
    ∃ name value, (c.conclude details r).body = .object [(name, value)] ∧
      Json.Exact (.object [(name, value)]) ∧
      Prints details (fetches.picked (c.request.serve sv w s t).trace) c r name value := by
  have hstring : ∀ name text, Json.Exact (.object [(name, .string text)]) := fun name text =>
    .object (List.forall_mem_singleton.mpr (.string text))
  cases r with
  | error f => exact ⟨_, _, rfl, hstring _ _, .failure f⟩
  | ok v =>
    cases c with
    | testConnection login => exact ⟨_, _, rfl, hstring _ _, .connected login⟩
    | openSession login secret duration => exact ⟨_, _, rfl, hstring _ _, .opened _ _ _ v⟩
    | listTables key secret =>
      have htables : ∀ table ∈ v.map Json.string, Json.Exact table := by
        intro table hmem
        obtain ⟨name, -, rfl⟩ := List.mem_map.mp hmem
        exact .string name
      have harray : Json.Exact (.array (v.map Json.string)) := .array htables
      exact ⟨_, _, rfl, .object (List.forall_mem_singleton.mpr harray), .listed _ _ v⟩
    | getJson key secret selection =>
      have hrun : rendered (.value (.ok v)) s t (fetches.picked
          (Request.serve sv (.fetchRows key secret selection) w s t).trace) := by
        have hleads := fetchRows_rendered sv w s t key secret selection
        intro text htext
        exact hleads text (h.trans htext)
      obtain ⟨rows, hrows, rfl⟩ := hrun v rfl
      exact ⟨_, _, rfl, hstring _ _, .fetched _ _ _ hrows (isArrayOf_arrayText rows)⟩
    | closeSession key => exact ⟨_, _, rfl, hstring _ _, .closed key⟩

/-- Behind the setup, whatever the operation of a command ends with is printed as one document and a
line break, and is what is read of them; and without such an end nothing is printed. -/
theorem output_reads {σ : Type} {machine : Machine Id} {p : Prepared} {c : Command} {w : World σ}
    {s : σ} {t : Instant} (hready : Ready machine p.settings c w s t) (filter : Log.Filter) :
    let e := c.request.serve ⟨p.settings.operationLimit⟩ w s t
    (∀ r, e.result = .value r → ∃ a name value,
      serve machine p filter c = some a ∧
      Prints p.settings.sendDetails (fetches.picked e.trace) c r name value ∧
      a.output = (Json.object [(name, value)]).pretty ++ "\n" ∧
      Json.parseText a.output = .ok (.object [(name, value)])) ∧
    ((∀ r, e.result ≠ .value r) → ∀ a, serve machine p filter c = some a → a.output = "") := by
  intro e
  have hserve : serve machine p filter c =
      Outcome.ofResult (e.result.map (c.conclude p.settings.sendDetails)) := hready.serve_eq filter
  constructor
  · intro r hr
    obtain ⟨name, value, hbody, hexact, hprints⟩ :=
      exists_prints ⟨p.settings.operationLimit⟩ p.settings.sendDetails c w s t hr
    have houtput : (Outcome.ofReply (c.conclude p.settings.sendDetails r)).output =
        (Json.object [(name, value)]).pretty ++ "\n" := by
      rw [Outcome.ofReply, Reply.text, hbody]
    rw [hr] at hserve
    refine ⟨_, name, value, hserve, hprints, houtput, ?_⟩
    rw [houtput]
    exact hexact.parse_pretty
  · intro hnone a ha
    rw [hserve] at ha
    cases hresult : e.result with
    | value r => exact absurd hresult (hnone r)
    | broken why =>
      rw [hresult] at ha
      cases ha
      rfl
    | endless =>
      rw [hresult] at ha
      cases ha

section Sample

def answering (rows : List String) : World Unit where
  respond _ _ c :=
    { answer := match c with
        | .decrypt _ _ => .ok (Utf8.octets sampleLogin.encode)
        | .query _ => .ok rows
        | c => c.favourable
      state := (), abandoned := () }
  tick_pos := millisecondTick_pos

def withRows (rows : List String) : Machine Id where
  files := noFiles
  keep _ _ := ()
  reachStore _ _ := some (.ok ())
  perform _ _ p := (p.run (answering rows) () 0).result

def mixedRows : List String := ["-7 ", "\",]\"", "\n[ ]"]

theorem output_reads_rows :
    let c : Command := .getJson "key" "secret" ⟨"t", [], none, none⟩
    Ready (withRows mixedRows) Settings.standard c (answering mixedRows) () 0 ∧ ∃ a text,
      serve (withRows mixedRows) ⟨.standard, {}, none⟩ [] c = some a ∧
      Json.parseText a.output = .ok (.object [("result", .string text)]) ∧
      Json.parseText text = .ok (.array [.number (.negative 7), .string ",]", .array []]) := by
  intro c
  let e := (Request.fetchRows "key" "secret" ⟨"t", [], none, none⟩).serve
    ⟨Settings.standard.operationLimit⟩ (answering mixedRows) () 0
  have hready : Ready (withRows mixedRows) Settings.standard c (answering mixedRows) () 0 :=
    ⟨fun _ => rfl, fun _ _ => rfl⟩
  have hresult : e.result = .value (.ok (arrayText mixedRows)) := by decide +kernel
  have hanswers : fetches.picked e.trace = [mixedRows] := by decide +kernel
  obtain ⟨a, name, value, hserve, hprints, -, hread⟩ :=
    (output_reads (p := ⟨.standard, {}, none⟩) hready []).1 _ hresult
  obtain ⟨rows, hrows, htext, rfl, rfl⟩ := hprints.isArrayOf
  obtain rfl : mixedRows = rows := List.singleton_inj.mp (hanswers.symm.trans hrows)
  have hnumber : Json.parseText "-7 " = .ok (.number (.negative 7)) := by rfl
  have harray : Json.parseText "\n[ ]" = .ok (.array []) := by rfl
  have hvalues : List.Forall₂ (fun row v => Json.parseText row = .ok v) mixedRows
      [.number (.negative 7), .string ",]", .array []] :=
    .cons hnumber (.cons parseText_separators (.cons harray .nil))
  obtain ⟨f, hf, -⟩ := Json.parse_eq_ok_iff.mp hnumber
  obtain ⟨f', hf', -⟩ := Json.parse_eq_ok_iff.mp parseText_separators
  obtain ⟨f'', hf'', -⟩ := Json.parse_eq_ok_iff.mp harray
  obtain ⟨-, hiff⟩ := htext [f, f', f''] (.cons hf (.cons hf' (.cons hf'' .nil)))
  exact ⟨hready, a, _, hserve, hread, (hiff _).mpr ⟨_, hvalues, rfl⟩⟩

end Sample

end Command
end RowGate
