import RowGate.Command.Offline
import RowGate.Proofs.Service.Reports
import RowGate.Proofs.Service.Screening

/-! # How commands end

The code that a command ends with tells whose fault a failure is. What the caller can mend is told
with its own message: an input is missing, there is no session under the key, or the failure to
connect is recognised. Every other failure is an internal one, and unless details are wanted all of
them look the same from outside.
-/
namespace RowGate

def Service.Result.map {α β : Type} (f : α → β) : Service.Result α → Service.Result β
  | .value a => .value (f a)
  | .broken why => .broken why
  | .endless => .endless

namespace Postgres
open Service

theorem attempted_eq_rejected_iff {l : Login} {r : Except ConnectFailure Unit} {why : Rejection} :
    (attempted l r).1 = .error (.rejected why) ↔
      ∃ f, r = .error f ∧ Rejection.ofFailure f = some why := by
  cases r with
  | ok _ => simp [attempted]
  | error f => cases h : Rejection.ofFailure f <;> simp [attempted, GatewayFault.ofFailure, h]

theorem listed_ne_rejected (r : Except String (List (Cell × Cell))) (why : Rejection) :
    (listed r).1 ≠ .error (.rejected why) := by
  cases r with
  | error reason => simp [listed]
  | ok rows => cases h : rows.mapM TableRef.ofCells <;> simp [listed, h]

theorem fetched_ne_rejected (r : Except String (FirstColumn × List Cell)) (why : Rejection) :
    (fetched r).1 ≠ .error (.rejected why) := by
  cases r <;> simp [fetched]

theorem offlineConnect_answer {σ : Type} (look : Network.Lookup) (s : σ) (l : Login) :
    (offlineConnect look s l).answer = (attempted l (.error (unreachable look l))).1 := by
  unfold offlineConnect
  generalize attempted l (.error (unreachable look l)) = attempt
  rfl

end Postgres

namespace Command.Offline
open Service

/-- Where no network is at hand every attempt to connect fails at its peer. -/
def driver (around : Surroundings) : Driver State := fun _ _ login =>
  some (Postgres.unreachable around.look login)

theorem world_recognises (cost : Nat) (around : Surroundings) :
    (world cost around).Recognises (driver around) where
  connect s t login why := by
    have hanswer : ((world cost around).respond s t (.connect login)).answer = _ :=
      Postgres.offlineConnect_answer around.look s login
    rw [hanswer, Postgres.attempted_eq_rejected_iff]
    simp [driver]
  listTables s t why := Postgres.listed_ne_rejected (.error Postgres.noConnection) why
  query s t sql why := Postgres.fetched_ne_rejected (.error Postgres.noConnection) why

end Command.Offline

namespace Command
open Service

def request : Command → Request
  | testConnection login => .testConnection login
  | openSession login secret duration => .openSession login secret duration
  | listTables key secret => .listTables key secret
  | getJson key secret selection => .fetchRows key secret selection
  | closeSession key => .closeSession key

def success : (c : Command) → c.request.Value → Reply
  | testConnection _, _ => .message connectedMessage
  | openSession _ _ _, key => .one "sessionKey" (.string key)
  | listTables _ _, tables => .one "tables" (.array (tables.map .string))
  | getJson _ _ _, result => .one "result" (.string result)
  | closeSession _, _ => .message sessionClosedMessage

theorem success_code (c : Command) (v : c.request.Value) : (c.success v).code = 0 := by
  cases c <;> rfl

def conclude (details : Bool) (c : Command) : Except ServiceFault c.request.Value → Reply
  | .ok v => c.success v
  | .error f => .failure details f

theorem dispatch_eq (sv : Service) (c : Command) :
    dispatch sv c = c.request.operation sv >>= fun v => pure (c.success v) := by
  cases c <;> rfl

section Run
variable {σ : Type} (settings : Settings) (c : Command) (w : World σ) (s : σ) (t : Instant)

def result : Service.Result (Except ServiceFault c.request.Value) :=
  (c.request.serve ⟨settings.operationLimit⟩ w s t).result

/-- What comes of the reply to a command is what comes of its operation. -/
theorem result_reply : ((reply settings c).run w s t).result =
    (c.result settings w s t).map (c.conclude settings.sendDetails) := by
  have h : Leads everyCall w (reply settings c) s t [] fun r _ _ _ =>
      r = (c.result settings w s t).map (c.conclude settings.sendDetails) := by
    rw [reply, leads_bind, dispatch_eq, leads_then]
    unfold Leads
    rw [result, Request.serve]
    generalize (c.request.operation ⟨settings.operationLimit⟩).run.run w s t = e
    obtain ⟨result, time, state, trace⟩ := e
    cases result with
    | broken why => rfl
    | endless => rfl
    | value v =>
    cases v with
    | ok v => rfl
    | error f =>
      simp only [forward, onward]
      split <;> rfl
  exact h

end Run

def Outcome.ofResult : Service.Result Reply → Option Outcome
  | .value r => some (.ofReply r)
  | .broken why => some (.broken why)
  | .endless => none

structure Ready {σ : Type} (machine : Machine Id) (settings : Settings) (c : Command) (w : World σ)
    (s : σ) (t : Instant) : Prop where
  reached : needsStore c →
    machine.reachStore settings.redisUrl settings.operationLimit = some (.ok ())
  performed : ∀ {α : Type} (tell : Log.Event → Id Unit) (p : Program α),
    machine.perform settings tell p = (p.run w s t).result

namespace Ready
variable {σ : Type} {machine : Machine Id} {p : Prepared} {c : Command} {w : World σ} {s : σ}
  {t : Instant}

theorem reach_eq_ok (h : Ready machine p.settings c w s t) (tell : Log.Event → Id Unit) :
    reach machine p.settings tell c = (.ok () : Except Failure Unit) := by
  unfold reach
  by_cases hneeds : needsStore c = true
  · rw [if_pos hneeds, h.reached hneeds]
    rfl
  · rw [if_neg hneeds]
    rfl

/-- A run ends with the reply to what comes of the operation. -/
theorem serve_eq (h : Ready machine p.settings c w s t) (filter : Log.Filter) :
    serve machine p filter c = Outcome.ofResult
      ((c.result p.settings w s t).map (c.conclude p.settings.sendDetails)) := by
  rw [← result_reply, ← h.performed fun e =>
    if filter.admits e then machine.keep p.log e else pure ()]
  unfold serve
  simp only [bind]
  rw [h.reach_eq_ok]
  cases machine.perform p.settings _ (reply p.settings c) <;> rfl

end Ready

/-- A run of a command behind its setup. The session store is reached if it is needed, and programs
run in a world from a state and an instant on, in which the gateway recognises failures. -/
structure Stage (σ : Type) where
  machine : Machine Id
  prepared : Prepared
  filter : Log.Filter
  command : Command
  world : World σ
  driver : Driver σ
  state : σ
  time : Instant
  reached : needsStore command →
    machine.reachStore prepared.settings.redisUrl prepared.settings.operationLimit = some (.ok ())
  performed : ∀ {α : Type} (tell : Log.Event → Id Unit) (p : Program α),
    machine.perform prepared.settings tell p = (p.run world state time).result
  recognises : world.Recognises driver

def Outcome.telling (code : Nat) (message : String) : Outcome :=
  ⟨code, (Json.object [("message", .string message)]).pretty ++ "\n", ""⟩

/-- Something that the caller can mend went wrong: the first objection to the inputs is that one is
missing, or it was reported that there is no session or why there is no connection. -/
inductive Mendable (objections : List Objection) (reports : List Report) : ServiceFault → Prop where
  | missing {member : String} (h : objections.head? = some (.absent member)) :
      Mendable objections reports (.invalidInput (member ++ " is required"))
  | noSession {key : String} (h : .noSession key ∈ reports) :
      Mendable objections reports (.known .sessionExpired)
  | noConnection {failure : ConnectFailure} {why : Rejection} (h : .noConnection failure ∈ reports)
      (hwhy : Rejection.ofFailure failure = some why) :
      Mendable objections reports (.known (.ofRejection why))

theorem fault?_eq_invalidInput_iff {o : Objection} {reason : String} :
    o.fault? = some (.invalidInput reason) ↔
      ∃ member, o = .absent member ∧ reason = member ++ " is required" := by
  cases o with
  | absent member => simp [Objection.fault?, eq_comm]
  | unspelled duration why => simp [Objection.fault?]
  | zero duration => simp [Objection.fault?]

namespace Stage
variable {σ : Type} (x : Stage σ)

def outcome : Option Outcome := serve x.machine x.prepared x.filter x.command

def result : Service.Result (Except ServiceFault x.command.request.Value) :=
  x.command.result x.prepared.settings x.world x.state x.time

def reports : List Report :=
  x.command.request.reports ⟨x.prepared.settings.operationLimit⟩ x.world x.driver x.state x.time

def Mends (f : ServiceFault) : Prop := Mendable x.command.request.objections x.reports f

def Breaks : Prop := ∃ o, x.command.request.objections.head? = some o ∧ o.fault? = none

theorem ready : Ready x.machine x.prepared.settings x.command x.world x.state x.time :=
  ⟨x.reached, x.performed⟩

/-- A run ends with the reply to what comes of the operation. -/
theorem outcome_eq : x.outcome =
    Outcome.ofResult (x.result.map (x.command.conclude x.prepared.settings.sendDetails)) :=
  x.ready.serve_eq x.filter

theorem screened : ∃ calls, Screened x.command.request.objections x.result calls := by
  have h : Leads everyCall x.world
      (x.command.request.operation ⟨x.prepared.settings.operationLimit⟩).run x.state x.time []
      (Service.screened x.command.request.objections) := by
    cases x.command with
    | testConnection login => exact testConnection_screened _ login
    | openSession login secret duration => exact openSession_screened _ login secret duration
    | listTables key secret => exact listTables_screened _ key secret
    | getJson key secret selection => exact fetchRows_screened _ key secret selection
    | closeSession key => exact closeSession_screened _ key
  exact ⟨_, h⟩

/-- An operation fails with something that is its caller's just where the caller can mend it. -/
theorem mends_iff (f : ServiceFault) :
    x.result = .value (.error f) ∧ f.isCallers = true ↔ x.Mends f := by
  obtain ⟨calls, hscreened⟩ := x.screened
  have hinput (reason : String) := hscreened.refused (.invalidInput reason) rfl
  have hknown (o : KnownOutcome) := x.command.request.known_iff_reported x.recognises
    ⟨x.prepared.settings.operationLimit⟩ x.state x.time o
  constructor
  · rintro ⟨hf, hcallers⟩
    cases f with
    | known o =>
      obtain ⟨report, hmem, ho⟩ := (hknown o).mp hf
      cases report with
      | noSession key =>
        cases ho
        exact .noSession hmem
      | noConnection failure =>
        obtain ⟨why, hwhy, rfl⟩ := Option.map_eq_some_iff.mp ho
        exact .noConnection hmem hwhy
    | invalidInput reason =>
      obtain ⟨o, ho, hfault⟩ := (hinput reason).mp hf
      obtain ⟨member, rfl, rfl⟩ := fault?_eq_invalidInput_iff.mp hfault
      exact .missing ho
    | _ => cases hcallers
  · intro h
    cases h with
    | missing h => exact ⟨(hinput _).mpr ⟨_, h, rfl⟩, rfl⟩
    | noSession h => exact ⟨(hknown _).mpr ⟨_, h, rfl⟩, rfl⟩
    | noConnection h hwhy =>
      exact ⟨(hknown _).mpr ⟨_, h, Option.map_eq_some_iff.mpr ⟨_, hwhy, rfl⟩⟩, rfl⟩

theorem breaks_iff : (∃ why, x.result = .broken why) ↔ x.Breaks := by
  obtain ⟨calls, hscreened⟩ := x.screened
  exact hscreened.broken

theorem isTest_of_endless (h : x.result = .endless) : x.command.request.IsTest := by
  have htraced := x.command.request.serve_traced ⟨x.prepared.settings.operationLimit⟩ x.world
    x.state x.time
  change Traced _ x.result _ at htraced
  rw [h] at htraced
  exact htraced.of_endless

end Stage

def codeOf {α : Type} : Service.Result (Except ServiceFault α) → Option Nat
  | .value (.ok _) => some 0
  | .value (.error f) =>
    some (if f.isCallers then Reply.callersFaultCode else Reply.internalFaultCode)
  | .broken _ => some brokenCode
  | .endless => none

section Codes
variable {α : Type} {r : Service.Result (Except ServiceFault α)}

theorem codeOf_eq_success : codeOf r = some 0 ↔ ∃ v, r = .value (.ok v) := by
  rcases r with (f | v) | why | _
  · cases h : f.isCallers <;> simp [codeOf, h, Reply.callersFaultCode, Reply.internalFaultCode]
  all_goals simp [codeOf, brokenCode]

theorem codeOf_eq_callers : codeOf r = some Reply.callersFaultCode ↔
    ∃ f, r = .value (.error f) ∧ f.isCallers = true := by
  rcases r with (f | v) | why | _
  · cases h : f.isCallers <;> simp [codeOf, h, Reply.callersFaultCode, Reply.internalFaultCode]
  all_goals simp [codeOf, brokenCode, Reply.callersFaultCode]

theorem codeOf_eq_internal : codeOf r = some Reply.internalFaultCode ↔
    ∃ f, r = .value (.error f) ∧ f.isCallers = false := by
  rcases r with (f | v) | why | _
  · cases h : f.isCallers <;> simp [codeOf, h, Reply.callersFaultCode, Reply.internalFaultCode]
  all_goals simp [codeOf, brokenCode, Reply.internalFaultCode]

theorem codeOf_eq_broken : codeOf r = some brokenCode ↔ ∃ why, r = .broken why := by
  rcases r with (f | v) | why | _
  · cases h : f.isCallers <;>
      simp [codeOf, h, brokenCode, Reply.callersFaultCode, Reply.internalFaultCode]
  all_goals simp [codeOf, brokenCode]

theorem codeOf_eq_none : codeOf r = none ↔ r = .endless := by
  rcases r with (f | v) | why | _ <;> simp [codeOf]

end Codes

/-- What the caller learns from the end of a run. Each code stands for one way in which the
operation can end, and a failure that the caller can mend is told with its own message. -/
structure Tiered {σ : Type} (x : Stage σ) : Prop where
  succeeded : (∃ a, x.outcome = some a ∧ a.code = 0) ↔ ∃ v, x.result = .value (.ok v)
  callers : ∀ f, x.result = .value (.error f) ∧ f.isCallers = true ↔ x.Mends f
  told : ∀ a, x.outcome = some a ∧ a.code = Reply.callersFaultCode ↔
    ∃ f, x.Mends f ∧ a = .telling Reply.callersFaultCode f.message
  /-- Whatever ends otherwise ends with the code of internal failures. -/
  internal : (∃ a, x.outcome = some a ∧ a.code = Reply.internalFaultCode) ↔
    (¬ ∃ v, x.result = .value (.ok v)) ∧ (¬ ∃ f, x.Mends f) ∧ ¬ x.Breaks ∧ x.outcome ≠ none
  broken : (∃ a, x.outcome = some a ∧ a.code = brokenCode) ↔ x.Breaks
  /-- Only a login that is tried may leave a run waiting. -/
  lingering : x.outcome = none → x.command.request.IsTest

namespace Stage
variable {σ : Type} (x : Stage σ)

theorem map_code_outcome : x.outcome.map Outcome.code = codeOf x.result := by
  rw [x.outcome_eq]
  rcases x.result with (f | v) | why | _
  · rfl
  · exact congrArg some (success_code _ v)
  · rfl
  · rfl

theorem exists_code_iff (code : Nat) :
    (∃ a, x.outcome = some a ∧ a.code = code) ↔ codeOf x.result = some code := by
  rw [← x.map_code_outcome, Option.map_eq_some_iff]

theorem outcome_of_callers {f : ServiceFault} (h : x.result = .value (.error f))
    (hf : f.isCallers = true) :
    x.outcome = some (.telling Reply.callersFaultCode f.message) := by
  rw [x.outcome_eq, h]
  simp only [Service.Result.map, conclude, Reply.failure, ServiceFault.shown, hf]
  rfl

/-- Without details all internal failures look the same. -/
theorem outcome_of_internal {f : ServiceFault} (h : x.result = .value (.error f))
    (hf : f.isCallers = false) (hdetails : x.prepared.settings.sendDetails = false) :
    x.outcome = some (.telling Reply.internalFaultCode ServiceFault.internalMessage) := by
  rw [x.outcome_eq, h]
  simp only [Service.Result.map, conclude, Reply.failure, ServiceFault.shown, hf, hdetails]
  rfl

theorem tiered : Tiered x where
  succeeded := by rw [x.exists_code_iff, codeOf_eq_success]
  callers := x.mends_iff
  told a := by
    constructor
    · rintro ⟨ha, hcode⟩
      obtain ⟨f, hf, hcallers⟩ := codeOf_eq_callers.mp ((x.exists_code_iff _).mp ⟨a, ha, hcode⟩)
      refine ⟨f, (x.mends_iff f).mp ⟨hf, hcallers⟩, ?_⟩
      exact Option.some.inj (ha.symm.trans (x.outcome_of_callers hf hcallers))
    · rintro ⟨f, hf, rfl⟩
      obtain ⟨hf, hcallers⟩ := (x.mends_iff f).mpr hf
      exact ⟨x.outcome_of_callers hf hcallers, rfl⟩
  internal := by
    have hends : x.outcome ≠ none ↔ x.result ≠ .endless := by
      rw [ne_eq, ne_eq, ← codeOf_eq_none, ← x.map_code_outcome, Option.map_eq_none_iff]
    simp only [← x.mends_iff, ← x.breaks_iff, hends, x.exists_code_iff, codeOf_eq_internal]
    rcases x.result with (f | v) | why | _ <;> simp
  broken := by rw [x.exists_code_iff, codeOf_eq_broken, x.breaks_iff]
  lingering h := by
    refine x.isTest_of_endless (codeOf_eq_none.mp ?_)
    rw [← x.map_code_outcome, h]
    rfl

/-- Without details internal failures are told in one way, whatever they are. -/
theorem eq_of_internal (hdetails : x.prepared.settings.sendDetails = false) {a : Outcome}
    (ha : x.outcome = some a) (hcode : a.code = Reply.internalFaultCode) :
    a = .telling Reply.internalFaultCode ServiceFault.internalMessage := by
  obtain ⟨f, hf, hinternal⟩ := codeOf_eq_internal.mp ((x.exists_code_iff _).mp ⟨a, ha, hcode⟩)
  exact Option.some.inj (ha.symm.trans (x.outcome_of_internal hf hinternal hdetails))

end Stage

def Stage.offline (files : FileSystem Id) (keep : Log.Options → Log.Event → Id Unit)
    (clock : Instant) (around : Offline.Surroundings) (p : Prepared) (filter : Log.Filter)
    (login : Login) : Stage Offline.State where
  machine := Offline.machine files keep clock around
  prepared := p
  filter := filter
  command := .testConnection login
  world := Offline.world p.settings.keyCost.val around
  driver := Offline.driver around
  state := {}
  time := clock
  reached h := nomatch h
  performed _ _ := rfl
  recognises := Offline.world_recognises _ around

section Sample

def noFiles : FileSystem Id where
  makeDirectory _ := .error .notFound
  isDirectory _ := false
  isPresent _ := false
  read _ := .error .notFound
  openAppend _ := .error .notFound

def gated (failure : Option ConnectFailure) : World Unit where
  respond _ _ c :=
    { answer := match c with
        | .connect login => (Postgres.attempted login (failure.elim (.ok ()) .error)).1
        | c => c.favourable
      state := (), abandoned := () }
  tick_pos := millisecondTick_pos

theorem gated_recognises (failure : Option ConnectFailure) :
    (gated failure).Recognises fun _ _ _ => failure where
  connect s t login why := by
    refine Postgres.attempted_eq_rejected_iff.trans ?_
    cases failure <;> simp
  listTables s t why := nofun
  query s t sql why := nofun

def Stage.sample (failure : Option ConnectFailure) (command : Command) : Stage Unit where
  machine :=
    { files := noFiles, keep := fun _ _ => (), reachStore := fun _ _ => some (.ok ())
      perform := fun _ _ p => (p.run (gated failure) () 0).result }
  prepared := ⟨.standard, {}, none⟩
  filter := []
  command := command
  world := gated failure
  driver _ _ _ := failure
  state := ()
  time := 0
  reached _ := rfl
  performed _ _ := rfl
  recognises := gated_recognises failure

/-- Every run behind its setup keeps the tiers of failures apart, and where details are withheld,
any two runs of any commands that end with an internal failure print the same. -/
theorem endings_tiered {σ : Type} (x : Stage σ) :
    Tiered x ∧ ∀ {τ : Type} (y : Stage τ) (a b : Outcome),
      x.prepared.settings.sendDetails = false → y.prepared.settings.sendDetails = false →
      x.outcome = some a → y.outcome = some b →
      a.code = Reply.internalFaultCode → b.code = Reply.internalFaultCode →
      a.output = b.output := by
  refine ⟨x.tiered, ?_⟩
  intro τ y a b hx hy ha hb hacode hbcode
  rw [x.eq_of_internal hx ha hacode, y.eq_of_internal hy hb hbcode]

theorem endings_tiered_sample :
    let offline := Stage.offline noFiles (fun _ _ => ()) 0 ⟨fun _ => [], .nowhere⟩ ⟨{}, {}, none⟩ []
      sampleLogin
    let x := Stage.sample (some (.server "53300" "too many clients")) (.testConnection sampleLogin)
    let y := Stage.sample none (.listTables "key" "secret")
    Tiered offline ∧ x.prepared.settings.sendDetails = false ∧
    y.prepared.settings.sendDetails = false ∧
    ∃ a b, x.outcome = some a ∧ y.outcome = some b ∧ a.code = Reply.internalFaultCode ∧
      b.code = Reply.internalFaultCode ∧ a.output = b.output := by
  intro offline x y
  have hx : x.outcome = some (.telling 1 ServiceFault.internalMessage) := by decide +kernel
  have hy : y.outcome = some (.telling 1 ServiceFault.internalMessage) := by decide +kernel
  have hsame := (endings_tiered x).2 y _ _ rfl rfl hx hy rfl rfl
  exact ⟨(endings_tiered offline).1, rfl, rfl, _, _, hx, hy, rfl, rfl, hsame⟩

/-- A duration over which the reading breaks off is a run's end: nothing was achieved, there is
nothing that the caller could mend, and yet the code is not that of internal failures. -/
theorem ending_without_tier :
    let x := Stage.sample none (.openSession sampleLogin "secret" "18446744073709551615s 1000ms")
    (¬ ∃ v, x.result = .value (.ok v)) ∧ (¬ ∃ f, x.Mends f) ∧
      ¬ ∃ a, x.outcome = some a ∧ a.code = Reply.internalFaultCode := by
  intro x
  have hbroken : x.result = .broken Duration.Spelled.Fault.carry.message := rfl
  simp only [← x.mends_iff, x.exists_code_iff, hbroken]
  exact ⟨by simp, by simp, by decide⟩

end Sample

end Command
end RowGate
