import RowGate.Clock
import RowGate.Log.Event
import RowGate.Login
import RowGate.Service.Fault

/-! # Programs that call on others

An operation is written as a program: it asks collaborators one after the other, each time
with a limit on the waiting or for a computation that takes no time, reads the clock, and
says things to the log. It may also break off without a result. What a program does is then
a matter of the world it is run in, which settles every answer and how long it takes.
-/
namespace RowGate.Service

/-- What an operation asks of its collaborators. -/
inductive Call where
  | connect (login : Login)
  | listTables
  | query (sql : String)
  | close
  | issueKey
  | encrypt (payload : Octets) (secret : String)
  | decrypt (envelope : String) (secret : String)
  | store (request : StoreRequest)
  deriving DecidableEq

namespace Call

@[reducible] def Fault : Call → Type
  | connect _ => GatewayFault
  | listTables => GatewayFault
  | query _ => GatewayFault
  | close => GatewayFault
  | issueKey => IssueFault
  | encrypt _ _ => SealFault
  | decrypt _ _ => SealFault
  | store _ => StoreFault

@[reducible] def Value : Call → Type
  | connect _ => Unit
  | listTables => List TableRef
  | query _ => List String
  | close => Unit
  | issueKey => String
  | encrypt _ _ => String
  | decrypt _ _ => Octets
  | store _ => Option Octets

abbrev Answer (c : Call) : Type := Except c.Fault c.Value

/-- The failure of an operation that a failed call is. -/
def failure : (c : Call) → c.Fault → ServiceFault
  | connect _, f => .ofGateway f
  | listTables, f => .ofGateway f
  | query _, f => .ofGateway f
  | close, f => .ofGateway f
  | issueKey, f => .issuing f
  | encrypt _ _, f => .sealing f
  | decrypt _ _, f => .sealing f
  | store _, f => .store f

end Call

/-- How long an answer is waited for. -/
inductive Limit where
  | unlimited
  | until (deadline : Instant)
  | within (grace : Duration)

/-- When an answer is there: as soon as it is asked for, after some time, or never. -/
inductive Latency where
  | ready
  | after (nanos : Nat)
  | never
  deriving DecidableEq, Repr

/-- What becomes of the waiting, and when. -/
inductive Waiting where
  | answered (time : Instant)
  | abandoned (time : Instant)
  | endless

/-- Waiting ends at the first tick of the clock that does not come before its limit. An answer
that is ready always counts; one that has to be waited for counts if there is time left to
wait, and then right at the end as well. -/
def Limit.waiting (tick : Nat) (start : Instant) (latency : Latency) : Limit → Waiting
  | .unlimited =>
    match latency with
    | .ready => .answered start
    | .after l => .answered (start + l)
    | .never => .endless
  | .until deadline => bounded (deadline.nextTick tick)
  | .within grace => bounded ((start + grace.nanos).nextTick tick)
where
  bounded (last : Instant) : Waiting :=
    match latency with
    | .ready => .answered start
    | .after l =>
      if start < last ∧ start + l ≤ last then .answered (start + l)
      else .abandoned (max start last)
    | .never => .abandoned (max start last)

inductive Program (α : Type) : Type where
  | done (a : α)
  | halt (why : String)
  | say (e : Log.Event) (next : Program α)
  | clock (next : Instant → Program α)
  | call (c : Call) (limit : Limit) (next : Option c.Answer → Program α)
  | compute (c : Call) (next : c.Answer → Program α)

namespace Program
variable {α β : Type}

def bind : Program α → (α → Program β) → Program β
  | .done a, f => f a
  | .halt why, _ => .halt why
  | .say e next, f => .say e (next.bind f)
  | .clock next, f => .clock (fun t => (next t).bind f)
  | .call c limit next, f => .call c limit (fun a => (next a).bind f)
  | .compute c next, f => .compute c (fun a => (next a).bind f)

instance : Monad Program where
  pure := .done
  bind := bind

def ask (c : Call) (limit : Limit) : Program (Option c.Answer) := .call c limit .done
def computed (c : Call) : Program c.Answer := .compute c .done
def tell (e : Log.Event) : Program Unit := .say e (.done ())
def now : Program Instant := .clock .done

theorem bind_done (p : Program α) : p.bind .done = p := by
  induction p with
  | done a => rfl
  | halt why => rfl
  | say e next ih => rw [bind, ih]
  | clock next ih => rw [bind]; exact congrArg _ (funext ih)
  | call c limit next ih => rw [bind]; exact congrArg _ (funext ih)
  | compute c next ih => rw [bind]; exact congrArg _ (funext ih)

theorem bind_assoc {γ : Type} (p : Program α) (f : α → Program β) (g : β → Program γ) :
    (p.bind f).bind g = p.bind (fun a => (f a).bind g) := by
  induction p with
  | done a => rfl
  | halt why => rfl
  | say e next ih => simp only [bind, ih]
  | clock next ih => simp only [bind, ih]
  | call c limit next ih => simp only [bind, ih]
  | compute c next ih => simp only [bind, ih]

instance : LawfulMonad Program := LawfulMonad.mk' Program bind_done (fun _ _ => rfl) bind_assoc

end Program

/-- What a collaborator does about a call: the answer and the time it takes, what it says
to the log before and after, and the state it leaves when it was waited for and when not. -/
structure Response (σ : Type) (c : Call) where
  answer : c.Answer
  latency : Latency := .ready
  before : List Log.Event := []
  after : List Log.Event := []
  state : σ
  abandoned : σ

/-- Nanoseconds in a millisecond, which is how finely waiting is timed. -/
def millisecondTick : Nat := 1000000

/-- The collaborators, and the clock by which they are waited for. -/
structure World (σ : Type) where
  respond : σ → Instant → (c : Call) → Response σ c
  tick : Nat := millisecondTick
  tick_pos : 0 < tick := by decide

/-- One thing that happened in a run. -/
inductive Happening where
  | said (e : Log.Event)
  | called (c : Call) (time : Instant) (answer : Option c.Answer)

/-- What comes of a run: a value, or it breaks off, or it waits forever. -/
inductive Result (α : Type) where
  | value (a : α)
  | broken (why : String)
  | endless
  deriving DecidableEq

/-- How a run ended. -/
structure Ending (σ α : Type) where
  result : Result α
  time : Instant
  state : σ
  trace : List Happening

namespace Program
variable {σ α : Type}

def said (es : List Log.Event) : List Happening := es.map .said

/-- Runs a program in a world from a state and an instant on. -/
def run (w : World σ) : Program α → σ → Instant → Ending σ α
  | .done a, s, t => ⟨.value a, t, s, []⟩
  | .halt why, s, t => ⟨.broken why, t, s, []⟩
  | .say e next, s, t =>
    let r := next.run w s t
    { r with trace := .said e :: r.trace }
  | .clock next, s, t => (next t).run w s t
  | .call c limit next, s, t =>
    let p := w.respond s t c
    match limit.waiting w.tick t p.latency with
    | .answered u =>
      let r := (next (some p.answer)).run w p.state u
      { r with trace := said p.before ++ .called c t (some p.answer) :: (said p.after ++ r.trace) }
    | .abandoned u =>
      let r := (next none).run w p.abandoned u
      { r with trace := said p.before ++ .called c t none :: r.trace }
    | .endless => ⟨.endless, t, p.abandoned, said p.before ++ [.called c t none]⟩
  | .compute c next, s, t =>
    let p := w.respond s t c
    let r := (next p.answer).run w p.state t
    { r with trace := said p.before ++ .called c t (some p.answer) :: (said p.after ++ r.trace) }

end Program

/-- What the log was told, in order. -/
def Ending.events {σ α : Type} (r : Ending σ α) : List Log.Event :=
  r.trace.filterMap fun
    | .said e => some e
    | .called _ _ _ => none

/-- The calls that were made, in order. -/
def Ending.calls {σ α : Type} (r : Ending σ α) : List Call :=
  r.trace.filterMap fun
    | .said _ => none
    | .called c _ _ => some c

end RowGate.Service
