import Mathlib.Data.List.Dedup
import Mathlib.Data.Nat.Find
import RowGate.Proofs.Service.Interleaving

/-! # Operations in flight are linearizable

The log of the store tells what becomes of operations in flight: it holds one call of each at most,
each answered by the store as the calls before it left it. So the operations do what they do one
after another in the order of the log, and an order that keeps to the log keeps to real time. A
session that was closed is expired for every visit that begins after that, unless it is put again.
-/
namespace RowGate.Service
variable {ι σ α : Type}

def replay (store : MemoryStore) (calls : List StoreCall) : MemoryStore :=
  calls.foldl (fun store c => (store.answer c.time c.request).2) store

/-- Each call was answered by the store as the calls before it left it. -/
def Genuine (store : MemoryStore) : List StoreCall → Prop
  | [] => True
  | c :: rest =>
    c.answer = some (store.answer c.time c.request).1 ∧
      Genuine (store.answer c.time c.request).2 rest

theorem replay_append (store : MemoryStore) (before after : List StoreCall) :
    replay store (before ++ after) = replay (replay store before) after := List.foldl_append

theorem genuine_append {store : MemoryStore} {before after : List StoreCall} :
    Genuine store (before ++ after) ↔
      Genuine store before ∧ Genuine (replay store before) after := by
  induction before generalizing store with
  | nil => simp [Genuine, replay]
  | cons c rest ih =>
    rw [List.cons_append, Genuine, Genuine, ih, and_assoc]
    rfl

/-- Only a put brings a key back. -/
theorem find?_answer_of_none {store : MemoryStore} {key : String} {r : StoreRequest}
    (h : store.find? key = none) (hr : ∀ value ttl, r ≠ .put key value ttl) (t : Instant) :
    (store.answer t r).2.find? key = none := by
  have herase : ∀ k, (store.erase k).find? key = none := by
    intro k
    rw [MemoryStore.find?_erase, h, ite_self]
  cases r with
  | put k value ttl =>
    have hk : key ≠ k := fun he => hr value ttl (he ▸ rfl)
    simp only [MemoryStore.answer, MemoryStore.put]
    split
    · exact herase k
    · split
      · exact h
      · rw [MemoryStore.find?_insert, if_neg hk, h]
  | get k =>
    simp only [MemoryStore.answer, MemoryStore.get]
    split
    · exact h
    · split
      · exact h
      · exact herase k
  | delete k => exact herase k

theorem find?_replay_of_none {store : MemoryStore} {key : String} {calls : List StoreCall}
    (h : store.find? key = none)
    (hc : ∀ c ∈ calls, ∀ value ttl, c.request ≠ .put key value ttl) :
    (replay store calls).find? key = none := by
  induction calls generalizing store with
  | nil => exact h
  | cons c rest ih =>
    refine ih (find?_answer_of_none h (hc c List.mem_cons_self) c.time) ?_
    exact fun c' hc' => hc c' (List.mem_cons_of_mem c hc')

/-- A read behind a delete finds nothing, unless there was a put between. -/
theorem Genuine.read_of_delete {store : MemoryStore} {key : String} {t u : Instant}
    {a b : Option StoreAnswer} {before between after : List StoreCall}
    (h : Genuine store (before ++ ⟨.delete key, t, a⟩ :: between ++ ⟨.get key, u, b⟩ :: after))
    (hput : ∀ c ∈ between, ∀ value ttl, c.request ≠ .put key value ttl) :
    b = some (.error (.notFound key)) := by
  obtain ⟨-, hread⟩ := genuine_append.mp h
  obtain ⟨hb, -⟩ := hread
  have hgone : (replay store (before ++ ⟨.delete key, t, a⟩ :: between)).find? key = none := by
    rw [replay_append]
    have herased : ((replay store before).erase key).find? key = none :=
      (MemoryStore.find?_erase _ key key).trans (if_pos rfl)
    change (replay ((replay store before).erase key) between).find? key = none
    exact find?_replay_of_none herased hput
  refine hb.trans ?_
  simp only [MemoryStore.answer, MemoryStore.get, hgone, Except.map]

section Flight
variable [DecidableEq ι] {jobs : ι → Job σ} {sv : Service} {store : MemoryStore}

/-- The courses are on their way to what they are to do with the store, the log holds just their
calls of it, and the store is what the calls have made of it. -/
structure Flight.Sound (store : MemoryStore) (S : Flight jobs) : Prop where
  meets : ∀ i, (S.courses i).Meets storeCalls (jobs i).request.Uses []
  logged : ∀ i,
    (S.log.filter (·.job = i)).map Turn.call = storeCalls.picked (S.courses i).trace
  genuine : Genuine store (S.log.map Turn.call)
  replayed : S.store = replay store (S.log.map Turn.call)

namespace Flight

theorem log_move (S : Flight jobs) (m : Move ι) : (S.move m).log = S.log ++ (storeCalls.picked
    (((S.courses m.job).beside S.store).next (jobs m.job).outside.vault m.pause).trace).map
      (Turn.mk m.job) := rfl

theorem turns_of_self (i : ι) (calls : List StoreCall) :
    ((calls.map (Turn.mk i)).filter (·.job = i)).map Turn.call = calls := by
  simp [List.filter_map, Function.comp_def]

theorem turns_of_ne {i j : ι} (h : i ≠ j) (calls : List StoreCall) :
    ((calls.map (Turn.mk j)).filter (·.job = i)).map Turn.call = [] := by
  simp [List.filter_map, Function.comp_def, h.symm]

theorem Sound.start (sv : Service) (jobs : ι → Job σ) (store : MemoryStore) :
    (start sv jobs store).Sound store where
  meets i := (jobs i).request.always_uses sv
  logged _ := rfl
  genuine := trivial
  replayed := rfl

theorem Sound.move {S : Flight jobs} (h : S.Sound store) (m : Move ι) : (S.move m).Sound store := by
  have hmeets : ∀ i, ((S.move m).courses i).Meets storeCalls (jobs i).request.Uses [] := by
    intro i
    by_cases hi : i = m.job
    · subst hi
      have hbeside : ((S.courses m.job).beside S.store).Meets storeCalls
          (jobs m.job).request.Uses [] := h.meets m.job
      rw [courses_move_self]
      exact hbeside.step (jobs m.job).outside.vault m.pause
    · rw [courses_move_of_ne S hi]
      exact h.meets i
  have hlogged : ∀ i, ((S.move m).log.filter (·.job = i)).map Turn.call =
      storeCalls.picked ((S.move m).courses i).trace := by
    intro i
    by_cases hi : i = m.job
    · subst hi
      rw [courses_move_self, log_move, List.filter_append, List.map_append, h.logged,
        turns_of_self]
      exact (Pick.picked_append storeCalls _ _).symm
    · rw [courses_move_of_ne S hi, log_move, List.filter_append, List.map_append, h.logged,
        turns_of_ne hi, List.append_nil]
  -- The store and the log change only if the store is called, and then together.
  cases hr : (S.courses m.job).storeRequest? with
  | none =>
    obtain ⟨c, hc⟩ := move_aside (m := m) hr
    have hstay := hc S rfl
    refine ⟨hmeets, hlogged, ?_, ?_⟩
    · rw [hstay]
      exact h.genuine
    · rw [hstay]
      exact h.replayed
  | some r =>
    obtain ⟨hstore, hlog⟩ := S.move_store hr
    refine ⟨hmeets, hlogged, ?_, ?_⟩
    · rw [hlog, List.map_append, genuine_append, ← h.replayed]
      exact ⟨h.genuine, rfl, trivial⟩
    · rw [hstore, hlog, List.map_append, replay_append, ← h.replayed]
      rfl

theorem Sound.run {S : Flight jobs} (h : S.Sound store) (moves : List (Move ι)) :
    (S.run moves).Sound store := by
  induction moves generalizing S with
  | nil => exact h
  | cons m rest ih => exact ih (h.move m)

theorem Sound.length_calls {S : Flight jobs} (h : S.Sound store) (i : ι) :
    (storeCalls.picked (S.courses i).trace).length ≤ 1 := by
  have hmeets := h.meets i
  unfold Course.Meets at hmeets
  rw [List.nil_append] at hmeets
  cases hphase : (S.courses i).phase with
  | going p =>
    rw [hphase] at hmeets
    obtain ⟨result, calls, huses⟩ := Program.Always.exists_end hmeets
    exact Nat.le_trans (List.length_append ▸ Nat.le_add_right _ _) huses.once
  | ended result =>
    rw [hphase] at hmeets
    exact hmeets.once

theorem Sound.nodup {S : Flight jobs} (h : S.Sound store) : (S.log.map Turn.job).Nodup := by
  refine List.nodup_iff_count_le_one.mpr fun i => ?_
  have hlength := h.length_calls i
  rw [← h.logged i, List.length_map] at hlength
  rw [List.count_eq_countP, List.countP_map, List.countP_eq_length_filter]
  exact hlength

theorem Sound.exists_turn {S : Flight jobs} (h : S.Sound store) {i : ι} {c : StoreCall}
    (hc : storeCalls.picked (S.courses i).trace = [c]) : (⟨i, c⟩ : Turn ι) ∈ S.log := by
  have hmem : c ∈ (S.log.filter (·.job = i)).map Turn.call := by
    rw [h.logged i, hc]
    exact List.mem_cons_self
  obtain ⟨turn, hturn, rfl⟩ := List.mem_map.mp hmem
  obtain ⟨hlog, hjob⟩ := List.mem_filter.mp hturn
  obtain rfl : turn.job = i := by simpa using hjob
  exact hlog

theorem Sound.uses {S : Flight jobs} (h : S.Sound store) {i : ι}
    {result : Result (Except ServiceFault (jobs i).request.Value)}
    (hdone : (S.courses i).phase = .ended result) :
    (jobs i).request.Uses result (storeCalls.picked (S.courses i).trace) := by
  have hmeets := h.meets i
  unfold Course.Meets at hmeets
  rwa [hdone] at hmeets

theorem phase_move (S : Flight jobs) {m : Move ι} {i : ι} (hi : m.job = i)
    {p : Program (Except ServiceFault (jobs i).request.Value)}
    (hp : (S.courses i).phase = .going p) :
    ∃ v t, ((S.move m).courses i).phase = (p.step (jobs i).outside.vault v t).phase := by
  subst hi
  have hbeside : ((S.courses m.job).beside S.store).phase = .going p := hp
  refine ⟨⟨S.store, (S.courses m.job).state⟩, (S.courses m.job).time + m.pause, ?_⟩
  rw [courses_move_self, Course.step, Course.next, hbeside]
  rfl

/-- A job that moves again and again comes to an end, whatever the others do. -/
theorem comes_to_end {i : ι} (p : Program (Except ServiceFault (jobs i).request.Value))
    (S : Flight jobs) (next : Nat → Move ι) (hp : (S.courses i).phase = .going p)
    (hnext : ∀ n, ∃ k, n ≤ k ∧ (next k).job = i) :
    ∃ n result, ((S.run ((List.range n).map next)).courses i).phase = .ended result := by
  -- On what is left of the program, which is less behind each move of the job.
  induction p using @Program.step_induction (Vault σ) generalizing S next with
  | h p ih =>
  have hfirst : ∃ k, (next k).job = i := (hnext 0).imp fun k hk => hk.2
  let k := Nat.find hfirst
  have hjob : (next k).job = i := Nat.find_spec hfirst
  let S' := S.run ((List.range k).map next)
  have hstay : S'.courses i = S.courses i := by
    refine courses_run_of_forall_ne S fun m hm he => ?_
    obtain ⟨n, hn, rfl⟩ := List.mem_map.mp hm
    exact Nat.find_min hfirst (List.mem_range.mp hn) he.symm
  have hrun : S.run ((List.range (k + 1)).map next) = S'.move (next k) := by
    rw [List.range_succ, List.map_append, run_append]
    rfl
  obtain ⟨v, t, hstep⟩ := phase_move S' hjob (hstay ▸ hp)
  cases hphase : (p.step (jobs i).outside.vault v t).phase with
  | ended result => exact ⟨k + 1, result, by rw [hrun, hstep, hphase]⟩
  | going rest =>
    have hlater : ∀ n, ∃ j, n ≤ j ∧ (next (k + 1 + j)).job = i := by
      intro n
      obtain ⟨j, hj, hjob⟩ := hnext (k + 1 + n)
      refine ⟨j - (k + 1), by omega, ?_⟩
      rwa [show k + 1 + (j - (k + 1)) = j by omega]
    obtain ⟨n, result, hdone⟩ := ih _ v t rest hphase (S'.move (next k))
      (fun n => next (k + 1 + n)) (hstep.trans hphase) hlater
    refine ⟨k + 1 + n, result, ?_⟩
    rw [List.range_add, List.map_append, run_append, hrun, List.map_map]
    exact hdone

theorem ends (S : Flight jobs) (i : ι) {next : Nat → Move ι}
    (h : ∀ n, ∃ k, n ≤ k ∧ (next k).job = i) :
    ∃ n result, ((S.run ((List.range n).map next)).courses i).phase = .ended result := by
  cases hphase : (S.courses i).phase with
  | going p => exact comes_to_end p S next hphase h
  | ended result => exact ⟨0, result, hphase⟩

end Flight

section Linearizable
variable (sv : Service) (jobs : ι → Job σ) (store : MemoryStore) (moves : List (Move ι))

abbrev inFlight : Flight jobs := (Flight.start sv jobs store).run moves

/-- Behind the delete of a key by one job comes the read of it by another, and the reader finds the
session expired unless the key was put between them. -/
def ExpiredBehind (log : List (Turn ι)) (closer reader : ι) (key : String)
    (result : Result (Except ServiceFault α)) : Prop :=
  ∃ before dropped between read after,
    log = before ++ dropped :: between ++ read :: after ∧
    dropped.job = closer ∧ dropped.call.request = .delete key ∧
    read.job = reader ∧ read.call.request = .get key ∧
    ((∀ e ∈ between, ∀ value ttl, e.call.request ≠ .put key value ttl) →
      result = .value (.error (.known .sessionExpired)))

structure Linearizable : Prop where
  /-- No job has called the store twice. -/
  once : ((inFlight sv jobs store moves).log.map Turn.job).Nodup
  logged : ∀ i, ((inFlight sv jobs store moves).log.filter (·.job = i)).map Turn.call =
    storeCalls.picked ((inFlight sv jobs store moves).courses i).trace
  ordered : ∃ order, InTurn (Flight.start sv jobs store) moves order
  /-- The store and all that the jobs have done is as if they had been served one after another. -/
  inTurn : ∀ order, InTurn (Flight.start sv jobs store) moves order →
    (inFlight sv jobs store moves).store = leave sv jobs (pausesOf moves) store order ∧
      ∀ before i after, order = before ++ i :: after →
        (inFlight sv jobs store moves).courses i =
          ((jobs i).serve sv (pausesOf moves i)
            (leave sv jobs (pausesOf moves) store before)).apart
  /-- A job that has not paused is served by the run of its request. -/
  unhurried : ∀ order before i after result, InTurn (Flight.start sv jobs store) moves order →
    order = before ++ i :: after → (∀ m ∈ moves, m.job = i → m.pause = 0) →
    ((inFlight sv jobs store moves).courses i).phase = .ended result →
    let found := leave sv jobs (pausesOf moves) store before
    let e := (jobs i).request.serve sv (jobs i).outside.vault ⟨found, (jobs i).state⟩ (jobs i).start
    (inFlight sv jobs store moves).courses i =
        ⟨.ended e.result, e.state.outside, e.time, e.trace⟩ ∧
      leave sv jobs (pausesOf moves) store (before ++ [i]) = e.state.store
  /-- A job that is over before another begins has had its turn before it. -/
  realTime : ∀ first second, moves = first ++ second → ∃ turns,
    (inFlight sv jobs store moves).log = (inFlight sv jobs store first).log ++ turns ∧
      (∀ e ∈ (inFlight sv jobs store first).log, ∃ m ∈ first, m.job = e.job) ∧
      ∀ e ∈ turns, ∀ result, ((inFlight sv jobs store first).courses e.job).phase ≠ .ended result
  /-- A job that goes on moving is over at some time. -/
  ends : ∀ i (next : Nat → Move ι), (∀ n, ∃ k, n ≤ k ∧ (next k).job = i) → ∃ n result,
    ((inFlight sv jobs store (moves ++ (List.range n).map next)).courses i).phase = .ended result
  /-- Once a session was closed, a visit that begins after that finds it expired. -/
  expired : ∀ first second i j key, moves = first ++ second →
    (jobs i).request = .closeSession key →
    (∃ v, ((inFlight sv jobs store first).courses i).phase = .ended (.value (.ok v))) →
    (jobs j).request.Visits key → (∀ m ∈ first, m.job ≠ j) →
    ∀ result, ((inFlight sv jobs store moves).courses j).phase = .ended result →
      ExpiredBehind (inFlight sv jobs store moves).log i j key result

variable {sv jobs store moves}

theorem inFlight_append {first second : List (Move ι)} :
    inFlight sv jobs store (first ++ second) = (inFlight sv jobs store first).run second :=
  Flight.run_append _ first second

theorem inFlight_sound : (inFlight sv jobs store moves).Sound store :=
  (Flight.Sound.start sv jobs store).run moves

theorem exists_inTurn : ∃ order, InTurn (Flight.start sv jobs store) moves order := by
  let called := (inFlight sv jobs store moves).log.map Turn.job
  let others := (moves.map Move.job).dedup.filter (· ∉ called)
  refine ⟨called ++ others, ?_, ?_, List.sublist_append_left _ _⟩
  · refine List.nodup_append.mpr ⟨inFlight_sound.nodup, (List.nodup_dedup _).filter _, ?_⟩
    rintro i hi _ ho rfl
    have hnot : i ∉ called := by simpa using (List.mem_filter.mp ho).2
    exact hnot hi
  · intro m hm
    by_cases hmem : m.job ∈ called
    · exact List.mem_append_left _ hmem
    · refine List.mem_append_right _ (List.mem_filter.mpr ⟨?_, by simpa using hmem⟩)
      exact List.mem_dedup.mpr (List.mem_map_of_mem hm)

theorem served_of_unhurried {before after : List ι} {i : ι}
    {result : Result (Except ServiceFault (jobs i).request.Value)}
    (horder : InTurn (Flight.start sv jobs store) moves (before ++ i :: after))
    (hpause : ∀ m ∈ moves, m.job = i → m.pause = 0)
    (hdone : ((inFlight sv jobs store moves).courses i).phase = .ended result) :
    let found := leave sv jobs (pausesOf moves) store before
    let e := (jobs i).request.serve sv (jobs i).outside.vault ⟨found, (jobs i).state⟩ (jobs i).start
    (inFlight sv jobs store moves).courses i =
        ⟨.ended e.result, e.state.outside, e.time, e.trace⟩ ∧
      leave sv jobs (pausesOf moves) store (before ++ [i]) = e.state.store := by
  have hcourse := (Flight.run_inTurn sv horder).2 before i after rfl
  have hzero : ∀ pause ∈ pausesOf moves i, pause = 0 := by
    intro pause hmem
    obtain ⟨m, hm, rfl⟩ := List.mem_map.mp hmem
    obtain ⟨hmoved, hjob⟩ := List.mem_filter.mp hm
    exact hpause m hmoved (by simpa using hjob)
  rw [hcourse] at hdone
  have hserve := Job.serve_of_unhurried hzero hdone
  constructor
  · rw [hcourse, hserve]
    rfl
  · rw [leave, List.foldl_append]
    exact congrArg (fun c => c.state.store) hserve

theorem turns_in_realTime (sv : Service) (jobs : ι → Job σ) (store : MemoryStore)
    (first second : List (Move ι)) : ∃ turns,
    (inFlight sv jobs store (first ++ second)).log = (inFlight sv jobs store first).log ++ turns ∧
      (∀ e ∈ (inFlight sv jobs store first).log, ∃ m ∈ first, m.job = e.job) ∧
      ∀ e ∈ turns, ∀ result,
        ((inFlight sv jobs store first).courses e.job).phase ≠ .ended result := by
  obtain ⟨begun, hbegun, hmoved⟩ := (Flight.start sv jobs store).exists_log_run first
  obtain ⟨turns, hlog, hturns⟩ := (inFlight sv jobs store first).exists_log_run second
  refine ⟨turns, by rw [inFlight_append, hlog], fun e he => ?_, fun e he => (hturns e he).2⟩
  rw [hbegun] at he
  exact (hmoved e he).1

/-- The delete stands in the log when the close is over, and the read of a visit that begins then
comes after it. -/
theorem expired_of_closed {first second : List (Move ι)} {i j : ι} {key : String}
    (hclose : (jobs i).request = .closeSession key)
    (hclosed : ∃ v, ((inFlight sv jobs store first).courses i).phase = .ended (.value (.ok v)))
    (hvisit : (jobs j).request.Visits key) (hj : ∀ m ∈ first, m.job ≠ j)
    {result : Result (Except ServiceFault (jobs j).request.Value)}
    (hdone : ((inFlight sv jobs store (first ++ second)).courses j).phase = .ended result) :
    ExpiredBehind (inFlight sv jobs store (first ++ second)).log i j key result := by
  obtain ⟨v, hv⟩ := hclosed
  obtain ⟨t, a, hdelete⟩ := (inFlight_sound.uses hv).dropped key hclose ⟨v, rfl⟩
  obtain ⟨before, rest, hfirst⟩ := List.append_of_mem (inFlight_sound.exists_turn hdelete)
  obtain ⟨u, b, hget, hexpired⟩ := (inFlight_sound.uses hdone).read key hvisit
  have hread := inFlight_sound.exists_turn hget
  obtain ⟨turns, hlog, hmoved, -⟩ := turns_in_realTime sv jobs store first second
  have hgenuine : Genuine store ((inFlight sv jobs store (first ++ second)).log.map Turn.call) :=
    inFlight_sound.genuine
  rw [hlog] at hread hgenuine ⊢
  obtain hin | hin := List.mem_append.mp hread
  · -- Before the close was over, the visit had not begun.
    obtain ⟨m, hm, hjob⟩ := hmoved _ hin
    exact absurd hjob (hj m hm)
  · obtain ⟨rest', after, rfl⟩ := List.append_of_mem hin
    have hsplit : (inFlight sv jobs store first).log ++
        (rest' ++ ⟨j, .get key, u, b⟩ :: after) =
          before ++ ⟨i, .delete key, t, a⟩ :: (rest ++ rest') ++ ⟨j, .get key, u, b⟩ :: after := by
      simp [hfirst]
    rw [hsplit] at hgenuine ⊢
    refine ⟨before, _, rest ++ rest', _, after, rfl, rfl, rfl, rfl, rfl, fun hput => ?_⟩
    refine hexpired ⟨key, ?_⟩
    simp only [List.map_append, List.map_cons] at hgenuine
    refine hgenuine.read_of_delete fun c hc => ?_
    rw [← List.map_append] at hc
    obtain ⟨e, he, rfl⟩ := List.mem_map.mp hc
    exact hput e he

/-- Jobs in flight are linearizable, however they move. -/
theorem flight_linearizable (sv : Service) (jobs : ι → Job σ) (store : MemoryStore)
    (moves : List (Move ι)) : Linearizable sv jobs store moves where
  once := inFlight_sound.nodup
  logged := inFlight_sound.logged
  ordered := exists_inTurn
  inTurn _ h := Flight.run_inTurn sv h
  unhurried := by
    rintro _ before i after result h rfl hpause hdone
    exact served_of_unhurried h hpause hdone
  realTime := by
    rintro first second rfl
    exact turns_in_realTime sv jobs store first second
  ends := by
    intro i next h
    obtain ⟨n, result, hdone⟩ := (inFlight sv jobs store moves).ends i h
    exact ⟨n, result, by rw [inFlight_append, hdone]⟩
  expired := by
    rintro first second i j key rfl hclose hclosed hvisit hj result hdone
    exact expired_of_closed hclose hclosed hvisit hj hdone

end Linearizable
end Flight
end RowGate.Service
