import Mathlib.Data.List.Basic
import Mathlib.Data.List.Induction
import Mathlib.Logic.Function.Basic
import RowGate.Proofs.Service.StoreUse
import RowGate.Proofs.Service.Vault

/-! # Operations in flight

Any number of operations are in flight over one store in memory, each with a gateway, an issuer and
a supply of nonces of its own. They move in any order, one step of one operation after the other,
with any pauses. Moves of two operations can be exchanged unless both call the store. So the moves
of each operation can be brought together, in the order in which the store was called, and what the
operations do is what they do one after another.
-/
namespace RowGate.Service
variable {ι σ α : Type}

structure Job (σ : Type) where
  request : Request
  outside : Outside σ
  state : σ
  start : Instant

/-- The job that moves, and how long it has paused before. -/
structure Move (ι : Type) where
  job : ι
  pause : Nat

structure Turn (ι : Type) where
  job : ι
  call : StoreCall

namespace Course

def beside (store : MemoryStore) (c : Course σ α) : Course (Vault σ) α :=
  ⟨c.phase, ⟨store, c.state⟩, c.time, c.trace⟩

def apart (c : Course (Vault σ) α) : Course σ α := ⟨c.phase, c.state.outside, c.time, c.trace⟩

theorem apart_beside (store : MemoryStore) (c : Course σ α) : (c.beside store).apart = c := rfl

end Course

def Job.course (sv : Service) (job : Job σ) : Course σ (Except ServiceFault job.request.Value) :=
  ⟨.going (job.request.operation sv).run, job.state, job.start, []⟩

def Job.serve (sv : Service) (job : Job σ) (pauses : List Nat) (store : MemoryStore) :
    Course (Vault σ) (Except ServiceFault job.request.Value) :=
  ((job.course sv).beside store).steps job.outside.vault pauses

theorem Job.serve_of_unhurried {sv : Service} {job : Job σ} {pauses : List Nat}
    {store : MemoryStore} {result : Result (Except ServiceFault job.request.Value)}
    (hp : ∀ pause ∈ pauses, pause = 0)
    (hdone : (job.serve sv pauses store).phase = .ended result) :
    let e := job.request.serve sv job.outside.vault ⟨store, job.state⟩ job.start
    job.serve sv pauses store = ⟨.ended e.result, e.state, e.time, e.trace⟩ := by
  have hend : (job.serve sv pauses store).ending job.outside.vault =
      job.request.serve sv job.outside.vault ⟨store, job.state⟩ job.start :=
    Course.ending_steps hp _
  generalize job.serve sv pauses store = course at hdone hend
  obtain ⟨phase, v, t, trace⟩ := course
  obtain rfl : phase = .ended result := hdone
  rw [← hend]
  rfl

structure Flight (jobs : ι → Job σ) where
  store : MemoryStore
  courses : (i : ι) → Course σ (Except ServiceFault (jobs i).request.Value)
  log : List (Turn ι)

def Program.storeRequest? : Program α → Option StoreRequest
  | .call (.store r) _ _ => some r
  | .compute (.store r) _ => some r
  | _ => none

def Course.storeRequest? (c : Course σ α) : Option StoreRequest :=
  match c.phase with
  | .going p => p.storeRequest?
  | .ended _ => none

section Steps
variable (o : Outside σ) (s : σ) (t : Instant)

/-- Whoever is not the store does the same whatever is in it. -/
theorem Outside.respond_aside {c : Call} (hc : ∀ r, c ≠ .store r) :
    ∃ r : Response σ c, ∀ store, o.vault.respond ⟨store, s⟩ t c =
      ⟨r.answer, r.latency, r.before, r.after, ⟨store, r.state⟩, ⟨store, r.abandoned⟩⟩ := by
  cases c with
  | store r => exact absurd rfl (hc r)
  | encrypt payload secret =>
    refine ⟨⟨Envelope.wrap payload secret (o.draw s).1.1, .ready, [], [], (o.draw s).2,
      (o.draw s).2⟩, fun store => ?_⟩
    rw [o.respond_encrypt]
  | decrypt envelope secret =>
    refine ⟨⟨Envelope.unwrap envelope secret, .ready, [], [], s, s⟩, fun store => ?_⟩
    rw [o.respond_decrypt]
  | connect login => exact ⟨o.respond s t (.connect login), fun _ => rfl⟩
  | listTables => exact ⟨o.respond s t .listTables, fun _ => rfl⟩
  | query sql => exact ⟨o.respond s t (.query sql), fun _ => rfl⟩
  | close => exact ⟨o.respond s t .close, fun _ => rfl⟩
  | issueKey => exact ⟨o.respond s t .issueKey, fun _ => rfl⟩

theorem storeCalls_aside {c : Call} (hc : ∀ r, c ≠ .store r) (answer : Option c.Answer) :
    storeCalls c t answer = none := by
  cases c with
  | store r => exact absurd rfl (hc r)
  | _ => rfl

/-- A step that does not call the store is the same whatever is in the store. -/
theorem Program.step_aside {p : Program α} (h : p.storeRequest? = none) :
    ∃ c : Course σ α, (∀ store, p.step o.vault ⟨store, s⟩ t = c.beside store) ∧
      storeCalls.picked c.trace = [] := by
  cases p with
  | done a => exact ⟨⟨.ended (.value a), s, t, []⟩, fun _ => rfl, rfl⟩
  | halt why => exact ⟨⟨.ended (.broken why), s, t, []⟩, fun _ => rfl, rfl⟩
  | say e next => exact ⟨⟨.going next, s, t, [.said e]⟩, fun _ => rfl, rfl⟩
  | clock next => exact ⟨⟨.going (next t), s, t, []⟩, fun _ => rfl, rfl⟩
  | call c limit next =>
    have hc : ∀ r, c ≠ .store r := by
      rintro r rfl
      cases h
    obtain ⟨r, hr⟩ := o.respond_aside s t hc
    have hpick := storeCalls_aside t hc
    have htick : o.vault.tick = o.tick := rfl
    cases hw : limit.waiting o.tick t r.latency with
    | answered u =>
      refine ⟨⟨.going (next (some r.answer)), r.state, u, answered r t⟩, fun store => ?_, ?_⟩
      · simp only [step, hr, htick, hw]
        rfl
      · rw [Pick.picked_answered, hpick]
        rfl
    | abandoned u =>
      refine ⟨⟨.going (next none), r.abandoned, u, abandoned r t⟩, fun store => ?_, ?_⟩
      · simp only [step, hr, htick, hw]
        rfl
      · rw [Pick.picked_abandoned, hpick]
        rfl
    | endless =>
      refine ⟨⟨.ended .endless, r.abandoned, t, abandoned r t⟩, fun store => ?_, ?_⟩
      · simp only [step, hr, htick, hw]
        rfl
      · rw [Pick.picked_abandoned, hpick]
        rfl
  | compute c next =>
    have hc : ∀ r, c ≠ .store r := by
      rintro r rfl
      cases h
    obtain ⟨r, hr⟩ := o.respond_aside s t hc
    refine ⟨⟨.going (next r.answer), r.state, t, answered r t⟩, fun store => ?_, ?_⟩
    · rw [step, hr]
      rfl
    · rw [Pick.picked_answered, storeCalls_aside t hc]
      rfl

theorem Program.step_store {p : Program α} {r : StoreRequest} (h : p.storeRequest? = some r)
    (store : MemoryStore) :
    (p.step o.vault ⟨store, s⟩ t).state.store = (store.answer t r).2 ∧
      storeCalls.picked (p.step o.vault ⟨store, s⟩ t).trace =
        [⟨r, t, some (store.answer t r).1⟩] := by
  cases p with
  | done a => cases h
  | halt why => cases h
  | say e next => cases h
  | clock next => cases h
  | call c limit next =>
    cases c with
    | store r' =>
      obtain rfl := Option.some.inj h
      simp only [step, o.respond_store, Limit.waiting_ready, true_and]
      exact Pick.picked_answered storeCalls _ t
    | _ => cases h
  | compute c next =>
    cases c with
    | store r' =>
      obtain rfl := Option.some.inj h
      rw [step, o.respond_store]
      exact ⟨rfl, Pick.picked_answered storeCalls _ t⟩
    | _ => cases h

theorem Course.next_aside {c : Course σ α} (h : c.storeRequest? = none) (pause : Nat) :
    ∃ c' : Course σ α, (∀ store, (c.beside store).next o.vault pause = c'.beside store) ∧
      storeCalls.picked c'.trace = [] := by
  obtain ⟨phase, s, t, trace⟩ := c
  cases phase with
  | going p => exact Program.step_aside o s (t + pause) h
  | ended result => exact ⟨⟨.ended result, s, t, []⟩, fun _ => rfl, rfl⟩

theorem Course.next_store {c : Course σ α} {r : StoreRequest} (h : c.storeRequest? = some r)
    (store : MemoryStore) (pause : Nat) :
    ((c.beside store).next o.vault pause).state.store = (store.answer (c.time + pause) r).2 ∧
      storeCalls.picked ((c.beside store).next o.vault pause).trace =
        [⟨r, c.time + pause, some (store.answer (c.time + pause) r).1⟩] := by
  obtain ⟨phase, s, t, trace⟩ := c
  cases phase with
  | going p => exact Program.step_store o s (t + pause) h store
  | ended result => cases h

end Steps

theorem sublist_of_cons {l before after : List ι} {i : ι}
    (h : (i :: l).Sublist (before ++ i :: after)) (hi : i ∉ before) : l.Sublist after := by
  induction before with
  | nil => exact List.cons_sublist_cons.mp h
  | cons x rest ih =>
    obtain hrest | ⟨rfl, -⟩ := List.cons_sublist_cons'.mp h
    · exact ih hrest fun hmem => hi (List.mem_cons_of_mem x hmem)
    · exact absurd List.mem_cons_self hi

theorem sublist_of_append_singleton {l before after : List ι} {i : ι}
    (h : (l ++ [i]).Sublist (before ++ i :: after)) (hi : i ∉ after) : l.Sublist before := by
  have hrev : (i :: l.reverse).Sublist (after.reverse ++ i :: before.reverse) := by
    simpa using h.reverse
  exact List.reverse_sublist.mp (sublist_of_cons hrev (by simpa using hi))

section Moves
variable [DecidableEq ι] {jobs : ι → Job σ}

namespace Flight

def start (sv : Service) (jobs : ι → Job σ) (store : MemoryStore) : Flight jobs :=
  ⟨store, fun i => (jobs i).course sv, []⟩

def move (S : Flight jobs) (m : Move ι) : Flight jobs :=
  let course := S.courses m.job
  let next := (course.beside S.store).next (jobs m.job).outside.vault m.pause
  { store := next.state.store
    courses := Function.update S.courses m.job (next.behind course.trace).apart
    log := S.log ++ (storeCalls.picked next.trace).map (⟨m.job, ·⟩) }

def run (S : Flight jobs) (moves : List (Move ι)) : Flight jobs := moves.foldl move S

theorem run_append (S : Flight jobs) (before after : List (Move ι)) :
    S.run (before ++ after) = (S.run before).run after := List.foldl_append

theorem courses_move_self (S : Flight jobs) (m : Move ι) : (S.move m).courses m.job =
    (((S.courses m.job).beside S.store).step (jobs m.job).outside.vault m.pause).apart :=
  Function.update_self m.job _ _

theorem courses_move_of_ne (S : Flight jobs) {m : Move ι} {i : ι} (h : i ≠ m.job) :
    (S.move m).courses i = S.courses i := Function.update_of_ne h _ _

theorem courses_run_of_forall_ne (S : Flight jobs) {moves : List (Move ι)} {i : ι}
    (h : ∀ m ∈ moves, i ≠ m.job) : (S.run moves).courses i = S.courses i := by
  induction moves generalizing S with
  | nil => rfl
  | cons m rest ih =>
    refine (ih (S.move m) fun m' hm' => h m' (List.mem_cons_of_mem m hm')).trans ?_
    exact courses_move_of_ne S (h m List.mem_cons_self)

/-- A move that does not call the store changes nothing but its own course, and that in the same way
whatever the others have done. -/
theorem move_aside {m : Move ι} {c : Course σ (Except ServiceFault (jobs m.job).request.Value)}
    (h : c.storeRequest? = none) : ∃ c', ∀ S : Flight jobs, S.courses m.job = c →
      S.move m = { S with courses := Function.update S.courses m.job c' } := by
  obtain ⟨next, hnext, hpick⟩ := Course.next_aside (jobs m.job).outside h m.pause
  refine ⟨next.behind c.trace, fun S hS => ?_⟩
  have hpick' : storeCalls.picked (next.beside S.store).trace = [] := hpick
  simp only [move, hS, hnext, hpick', List.map_nil, List.append_nil]
  rfl

theorem move_store (S : Flight jobs) {m : Move ι} {r : StoreRequest}
    (h : (S.courses m.job).storeRequest? = some r) :
    let t := (S.courses m.job).time + m.pause
    (S.move m).store = (S.store.answer t r).2 ∧
      (S.move m).log = S.log ++ [⟨m.job, r, t, some (S.store.answer t r).1⟩] := by
  intro t
  obtain ⟨hstore, hcalls⟩ := Course.next_store (jobs m.job).outside h S.store m.pause
  refine ⟨hstore, ?_⟩
  simp only [move, hcalls]
  rfl

/-- Moves of two jobs can be exchanged if the first does not call the store. -/
theorem move_comm_of_aside (S : Flight jobs) {a b : Move ι} (hab : a.job ≠ b.job)
    (ha : (S.courses a.job).storeRequest? = none) : (S.move a).move b = (S.move b).move a := by
  obtain ⟨c, hc⟩ := move_aside (m := a) ha
  rw [hc S rfl, hc (S.move b) (courses_move_of_ne S hab)]
  simp only [move, Function.update_of_ne hab.symm, Function.update_comm hab]

theorem aside_of_log_move (S : Flight jobs) {m : Move ι} (h : (S.move m).log = S.log) :
    (S.courses m.job).storeRequest? = none := by
  cases hr : (S.courses m.job).storeRequest? with
  | none => rfl
  | some r =>
    rw [(S.move_store hr).2] at h
    simp at h

theorem courses_move_of_ended (S : Flight jobs) {m : Move ι} {i : ι}
    {result : Result (Except ServiceFault (jobs i).request.Value)}
    (h : (S.courses i).phase = .ended result) : (S.move m).courses i = S.courses i := by
  by_cases hi : i = m.job
  · subst hi
    have hdone : ((S.courses m.job).beside S.store).phase = .ended result := h
    rw [courses_move_self, Course.step_of_ended hdone, Course.apart_beside]
  · exact courses_move_of_ne S hi

/-- Moves add turns to the log, of jobs that move and were not over before. -/
theorem exists_log_run (S : Flight jobs) (moves : List (Move ι)) :
    ∃ turns, (S.run moves).log = S.log ++ turns ∧ ∀ e ∈ turns, (∃ m ∈ moves, m.job = e.job) ∧
      ∀ result, (S.courses e.job).phase ≠ .ended result := by
  induction moves generalizing S with
  | nil => exact ⟨[], (List.append_nil _).symm, fun _ he => by cases he⟩
  | cons m rest ih =>
    obtain ⟨turns, hlog, hturns⟩ := ih (S.move m)
    refine ⟨_, hlog.trans (List.append_assoc _ _ _), fun e he => ?_⟩
    obtain hfirst | hrest := List.mem_append.mp he
    · obtain ⟨call, hcall, rfl⟩ := List.mem_map.mp hfirst
      refine ⟨⟨m, List.mem_cons_self, rfl⟩, fun result hdone => ?_⟩
      have hdone' : ((S.courses m.job).beside S.store).phase = .ended result := hdone
      rw [Course.next, hdone'] at hcall
      cases hcall
    · obtain ⟨⟨m', hm', hjob⟩, hgoing⟩ := hturns e hrest
      refine ⟨⟨m', List.mem_cons_of_mem m hm', hjob⟩, fun result hdone => ?_⟩
      exact hgoing result (by rw [courses_move_of_ended S hdone, hdone])

/-- A move can be exchanged with moves of other jobs if it does not call the store, or if they do
not. -/
theorem run_move_comm (S : Flight jobs) {m : Move ι} {moves : List (Move ι)}
    (hne : ∀ b ∈ moves, m.job ≠ b.job)
    (h : (S.courses m.job).storeRequest? = none ∨ (S.run moves).log = S.log) :
    (S.run moves).move m = (S.move m).run moves := by
  induction moves generalizing S with
  | nil => rfl
  | cons b rest ih =>
    have hb := hne b List.mem_cons_self
    have hrest := fun b' hb' => hne b' (List.mem_cons_of_mem b hb')
    obtain h | h := h
    · have hcomm := S.move_comm_of_aside hb h
      have haside := S.courses_move_of_ne hb ▸ h
      exact (ih (S.move b) hrest (.inl haside)).trans (congrArg (run · rest) hcomm.symm)
    · -- The log is as long as it was, so it was so behind `b` too.
      obtain ⟨turns, hlog, -⟩ := exists_log_run (S.move b) rest
      have hsame : (S.move b).log = S.log ∧ turns = [] := by
        have hall : (S.move b).log ++ turns = S.log := hlog.symm.trans h
        rw [move, List.append_assoc] at hall
        obtain ⟨hmove, hturns⟩ := List.append_eq_nil_iff.mp (List.append_right_eq_self.mp hall)
        exact ⟨by rw [move, hmove, List.append_nil], hturns⟩
      have hcomm := S.move_comm_of_aside hb.symm (S.aside_of_log_move hsame.1)
      rw [hsame.2, List.append_nil] at hlog
      exact (ih (S.move b) hrest (.inr hlog)).trans (congrArg (run · rest) hcomm)

end Flight

def together (moves : List (Move ι)) (order : List ι) : List (Move ι) :=
  order.flatMap fun i => moves.filter (·.job = i)

/-- An order of the jobs that move, in which those that call the store stand as they call it. -/
structure InTurn (S : Flight jobs) (moves : List (Move ι)) (order : List ι) : Prop where
  nodup : order.Nodup
  moved : ∀ m ∈ moves, m.job ∈ order
  called : ((S.run moves).log.map Turn.job).Sublist order

theorem mem_together {moves : List (Move ι)} {order : List ι} {m : Move ι} :
    m ∈ together moves order ↔ m ∈ moves ∧ m.job ∈ order := by
  simp [together, and_comm]

theorem together_cons (moves : List (Move ι)) (i : ι) (order : List ι) :
    together moves (i :: order) = moves.filter (·.job = i) ++ together moves order :=
  List.flatMap_cons

theorem together_append (moves : List (Move ι)) (before after : List ι) :
    together moves (before ++ after) = together moves before ++ together moves after :=
  List.flatMap_append

theorem together_append_of_notMem {moves : List (Move ι)} {m : Move ι} {order : List ι}
    (h : m.job ∉ order) : together (moves ++ [m]) order = together moves order := by
  unfold together
  refine List.flatMap_congr fun i hi => ?_
  have hne : m.job ≠ i := fun he => h (he ▸ hi)
  simp [List.filter_append, hne]

/-- Moves can be brought together: job by job, in the order in which the store was called, they lead
to the same as in the order in which they were made. -/
theorem Flight.run_together {S : Flight jobs} {moves : List (Move ι)} {order : List ι}
    (h : InTurn S moves order) : S.run (together moves order) = S.run moves := by
  -- On the moves, from the last one: `m` is brought back to the other moves of its job.
  induction moves using List.reverseRecOn generalizing order with
  | nil =>
    have hnone : together ([] : List (Move ι)) order = [] := by simp [together]
    rw [hnone]
  | append_singleton moves m ih =>
    obtain ⟨before, after, rfl⟩ := List.append_of_mem (h.moved m (by simp))
    have hnodup := h.nodup
    rw [List.nodup_append, List.nodup_cons] at hnodup
    obtain ⟨-, ⟨hafter, -⟩, hdisjoint⟩ := hnodup
    have hbefore : m.job ∉ before := fun hmem => hdisjoint _ hmem _ List.mem_cons_self rfl
    -- The first and the last part do not concern the job of `m`.
    let first := together moves before ++ moves.filter (·.job = m.job)
    let last := together moves after
    have hmoves : together moves (before ++ m.job :: after) = first ++ last := by
      rw [together_append, together_cons, ← List.append_assoc]
    have hall : together (moves ++ [m]) (before ++ m.job :: after) = first ++ [m] ++ last := by
      rw [together_append, together_cons, together_append_of_notMem hbefore,
        together_append_of_notMem hafter]
      simp [first, last, List.filter_append]
    have hprefix : InTurn S moves (before ++ m.job :: after) := by
      refine ⟨h.nodup, fun m' hm' => h.moved m' (List.mem_append_left _ hm'), ?_⟩
      obtain ⟨turns, hlog, -⟩ := (S.run moves).exists_log_run [m]
      refine List.Sublist.trans ?_ h.called
      rw [run_append, hlog, List.map_append]
      exact List.sublist_append_left _ _
    have hmiddle : S.run moves = (S.run first).run last := by
      rw [← ih hprefix, hmoves, run_append]
    have hlast : ∀ b ∈ last, m.job ≠ b.job := by
      intro b hb he
      exact hafter (he ▸ (mem_together.mp hb).2)
    rw [hall, run_append S (first ++ [m]), run_append S first, run_append S moves, hmiddle]
    refine (run_move_comm (S.run first) hlast ?_).symm
    cases hr : ((S.run first).courses m.job).storeRequest? with
    | none => exact .inl rfl
    | some r =>
    refine .inr ?_
    -- The job of `m` stands last in the log now, so all others that stand there come before it.
    have hcourse : (S.run moves).courses m.job = (S.run first).courses m.job := by
      rw [hmiddle, courses_run_of_forall_ne _ hlast]
    have hcalled := h.called
    rw [run_append] at hcalled
    have hlogged : ((S.run moves).run [m]).log = _ :=
      (move_store (S.run moves) (hcourse.symm ▸ hr)).2
    rw [hlogged, List.map_append] at hcalled
    have hjobs := sublist_of_append_singleton hcalled hafter
    obtain ⟨turns, hlog, hturns⟩ := (S.run first).exists_log_run last
    have hnone : turns = [] := by
      refine List.eq_nil_iff_forall_not_mem.mpr fun e he => ?_
      obtain ⟨⟨b, hb, hjob⟩, -⟩ := hturns e he
      have hin : e ∈ (S.run moves).log := by
        rw [hmiddle, hlog]
        exact List.mem_append_right _ he
      have heafter : e.job ∈ after := hjob ▸ (mem_together.mp hb).2
      exact hdisjoint _ (hjobs.subset (List.mem_map_of_mem hin)) _
        (List.mem_cons_of_mem _ heafter) rfl
    rw [hlog, hnone, List.append_nil]

theorem Flight.run_alone (S : Flight jobs) {i : ι} {moves : List (Move ι)}
    (h : ∀ m ∈ moves, m.job = i) :
    let c := ((S.courses i).beside S.store).steps (jobs i).outside.vault (moves.map Move.pause)
    (S.run moves).store = c.state.store ∧ (S.run moves).courses i = c.apart := by
  induction moves generalizing S with
  | nil => exact ⟨rfl, rfl⟩
  | cons m rest ih =>
    obtain rfl := h m List.mem_cons_self
    have hcourse : ((S.move m).courses m.job).beside (S.move m).store =
        ((S.courses m.job).beside S.store).step (jobs m.job).outside.vault m.pause := by
      rw [courses_move_self]
      rfl
    have hrest := ih (S.move m) fun m' hm' => h m' (List.mem_cons_of_mem m hm')
    rwa [hcourse] at hrest

def pausesOf (moves : List (Move ι)) (i : ι) : List Nat :=
  (moves.filter (·.job = i)).map Move.pause

/-- The store that jobs leave, each served by itself from the store that the one before it left. -/
def leave (sv : Service) (jobs : ι → Job σ) (pauses : ι → List Nat) (store : MemoryStore)
    (order : List ι) : MemoryStore :=
  order.foldl (fun store i => ((jobs i).serve sv (pauses i) store).state.store) store

section Together
variable (sv : Service) (S : Flight jobs) (moves : List (Move ι))

/-- A job whose moves come together, from its start on, is served by itself. -/
theorem Flight.run_serve {i : ι} (h : S.courses i = (jobs i).course sv) :
    (S.run (moves.filter (·.job = i))).store =
        ((jobs i).serve sv (pausesOf moves i) S.store).state.store ∧
      (S.run (moves.filter (·.job = i))).courses i =
        ((jobs i).serve sv (pausesOf moves i) S.store).apart := by
  have hjob : ∀ m ∈ moves.filter (·.job = i), m.job = i := fun m hm => by
    simpa using (List.mem_filter.mp hm).2
  have hrun := S.run_alone hjob
  rwa [h] at hrun

theorem Flight.store_together {order : List ι} (hnodup : order.Nodup)
    (h : ∀ i ∈ order, S.courses i = (jobs i).course sv) :
    (S.run (together moves order)).store = leave sv jobs (pausesOf moves) S.store order := by
  induction order generalizing S with
  | nil => rfl
  | cons i rest ih =>
    -- The moves of `i` leave the courses of the others at their start.
    obtain ⟨hi, hrest⟩ := List.nodup_cons.mp hnodup
    rw [together_cons, run_append, ih _ hrest]
    · rw [(S.run_serve sv moves (h i List.mem_cons_self)).1]
      rfl
    · intro j hj
      rw [courses_run_of_forall_ne]
      · exact h j (List.mem_cons_of_mem i hj)
      · intro m hm he
        have hm' : m.job = i := by simpa using (List.mem_filter.mp hm).2
        exact hi ((he.trans hm') ▸ hj)

end Together

/-- Jobs in flight do what they do one after another, each served by itself, in any order in which
those that call the store stand as they call it. -/
theorem Flight.run_inTurn (sv : Service) {store : MemoryStore} {moves : List (Move ι)}
    {order : List ι} (h : InTurn (start sv jobs store) moves order) :
    ((start sv jobs store).run moves).store = leave sv jobs (pausesOf moves) store order ∧
      ∀ before i after, order = before ++ i :: after →
        ((start sv jobs store).run moves).courses i =
          ((jobs i).serve sv (pausesOf moves i)
            (leave sv jobs (pausesOf moves) store before)).apart := by
  rw [← run_together h]
  refine ⟨store_together sv _ moves h.nodup fun i _ => rfl, ?_⟩
  rintro before i after rfl
  have hnodup := h.nodup
  rw [List.nodup_append, List.nodup_cons] at hnodup
  obtain ⟨hbefore, ⟨hafter, -⟩, hdisjoint⟩ := hnodup
  rw [together_append, together_cons, run_append, run_append, courses_run_of_forall_ne]
  · have hcourse : ((start sv jobs store).run (together moves before)).courses i =
        (jobs i).course sv := by
      rw [courses_run_of_forall_ne]
      · rfl
      · intro m hm he
        exact hdisjoint _ (mem_together.mp hm).2 _ List.mem_cons_self he.symm
    rw [(run_serve sv _ moves hcourse).2, store_together sv _ moves hbefore fun i _ => rfl]
    rfl
  · intro m hm he
    exact hafter (he ▸ (mem_together.mp hm).2)

end Moves
end RowGate.Service
