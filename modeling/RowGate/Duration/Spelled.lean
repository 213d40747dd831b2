import RowGate.Duration
import RowGate.Text.Blank

/-! # Durations as people write them

A spelled duration is a sequence of terms such as `1h 30m` or `1.5h`: a number, which may
have a decimal fraction, and the name of a unit. The terms add up. Nothing is rounded: a
fraction that does not come out even in the grain of its unit is refused, and so is every
intermediate count above 64 bits. Nanoseconds that come to just one second are carried last
of all, and where the seconds are full then, reading breaks off. Positions in faults are
offsets in octets.
-/
namespace RowGate.Duration.Spelled
open RowGate.Text

inductive Fault where
  | empty
  | numberExpected (offset : Nat)
  | invalidCharacter (offset : Nat)
  | unitExpected (count : Nat)
  | unknownUnit (name : String)
  | overflow
  | carry
  deriving DecidableEq, Repr

/-- All faults but the carry are faults of the text, and are told. -/
def Fault.isTold : Fault → Bool
  | .carry => false
  | _ => true

def Fault.message : Fault → String
  | .empty => "value was empty"
  | .numberExpected offset => "expected number at " ++ toString offset
  | .invalidCharacter offset => "invalid character at " ++ toString offset
  | .unitExpected count =>
    "time unit needed, for example " ++ toString count ++ "sec or " ++ toString count ++ "ms"
  | .unknownUnit name =>
    "unknown time unit \"" ++ name ++ "\", supported units: ns, us/µs, ms, sec, min, hours, " ++
      "days, weeks, months, years (and few variations)"
  | .overflow =>
    "number is too large or cannot be represented without a lack of precision (values below 1ns " ++
      "are not supported)"
  | .carry => "overflow when a second is carried"

/-- What a count is a count of. -/
inductive Grain where
  | nanosecond | second
  deriving DecidableEq, Repr

def Grain.nanos : Grain → Nat
  | .nanosecond => 1
  | .second => nanosPerSecond

/-- A unit holds `whole` grains; a fraction of it is taken of `fraction` grains, if of any. -/
structure TimeUnit where
  wholeGrain : Grain
  whole : Nat
  fraction : Option (Grain × Nat)

def TimeUnit.nanos (u : TimeUnit) : Nat := u.whole * u.wholeGrain.nanos

def nanosecond : TimeUnit := ⟨.nanosecond, 1, none⟩
def microsecond : TimeUnit := ⟨.nanosecond, 1000, some (.nanosecond, 1000)⟩
def millisecond : TimeUnit := ⟨.nanosecond, 1000000, some (.nanosecond, 1000000)⟩
def second : TimeUnit := ⟨.second, 1, some (.nanosecond, 1000000000)⟩
def minute : TimeUnit := ⟨.second, 60, some (.nanosecond, 60000000000)⟩
/-- Units of an hour and more keep whole seconds. -/
def coarse (seconds : Nat) : TimeUnit := ⟨.second, seconds, some (.second, seconds)⟩
def hour : TimeUnit := coarse 3600
def day : TimeUnit := coarse 86400
def week : TimeUnit := coarse 604800
def month : TimeUnit := coarse 2630016
def year : TimeUnit := coarse 31557600

def unitNames : List (List String × TimeUnit) :=
  [(["nanos", "nsec", "ns"], nanosecond),
   (["usec", "us", "µs"], microsecond),
   (["millis", "msec", "ms"], millisecond),
   (["seconds", "second", "secs", "sec", "s"], second),
   (["minutes", "minute", "min", "mins", "m"], minute),
   (["hours", "hour", "hr", "hrs", "h"], hour),
   (["days", "day", "d"], day),
   (["weeks", "week", "wk", "wks", "w"], week),
   (["months", "month", "M"], month),
   (["years", "year", "yr", "yrs", "y"], year)]

def unit? (name : String) : Option TimeUnit :=
  (unitNames.find? (·.1.contains name)).map (·.2)

/-- A number read so far; the fraction is a numerator over a power of ten. -/
structure Amount where
  whole : Nat
  fraction : Option (Nat × Nat)

/-- A count that fits 64 bits. -/
def word (n : Nat) : Except Fault Nat := if n < wordBound 64 then .ok n else .error .overflow

/-- Adds a count of grains to a total of nanoseconds. -/
def add (total : Nat) (grain : Grain) (count : Nat) : Except Fault Nat :=
  let carried := match grain with
    | .nanosecond => total % nanosPerSecond + count
    | .second => 0
  if carried < wordBound 64 ∧ total + count * grain.nanos < Duration.bound then
    .ok (total + count * grain.nanos)
  else if carried = nanosPerSecond then .error .carry
  else .error .overflow

/-- An exact quotient that fits 64 bits. -/
def exactly (num den : Nat) : Except Fault Nat :=
  if num < wordBound 64 ∧ num % den = 0 then .ok (num / den) else .error .overflow

/-- The total after one more term. -/
def addTerm (total : Nat) (a : Amount) (name : List Char) : Except Fault Nat :=
  match unit? (String.ofList name) with
  | none => if name.isEmpty then .error (.unitExpected a.whole)
            else .error (.unknownUnit (String.ofList name))
  | some u => do
    let count ← word (a.whole * u.whole)
    let total ← add total u.wholeGrain count
    match a.fraction with
    | none => .ok total
    | some (num, den) =>
      match u.fraction with
      | none => .error .overflow
      | some (grain, size) => do
        let part ← exactly (num * size) den
        add total grain part

/-- Where a reader of terms stands. `lead` is before a number, from offset `origin` on. In
`fraction`, `good` is the offset after the last digit or blank that belongs to it. -/
inductive Phase where
  | lead (origin : Nat) (fresh : Bool)
  | whole (n : Nat)
  | fraction (n num den good : Nat)
  | unit (a : Amount) (name : List Char)

structure State where
  phase : Phase
  total : Nat

def initial : State := ⟨.lead 0 true, 0⟩

def isLetter (c : Char) : Bool :=
  ('a' ≤ c && c ≤ 'z') || ('A' ≤ c && c ≤ 'Z') || c = Char.ofNat 0xB5

/-- One character `c` at `offset`; `next` is the offset after it. -/
def step (s : State) (offset next : Nat) (c : Char) : Except Fault State :=
  match s.phase with
  | .lead origin fresh =>
    if Digits.isDigit c then .ok ⟨.whole (Digits.value c), s.total⟩
    else if isBlank c then .ok ⟨.lead origin fresh, s.total⟩
    else .error (.numberExpected origin)
  | .whole n =>
    if Digits.isDigit c then do
      let m ← word (10 * n + Digits.value c)
      .ok ⟨.whole m, s.total⟩
    else if isBlank c then .ok s
    else if isLetter c then .ok ⟨.unit ⟨n, none⟩ [c], s.total⟩
    else if c = '.' then .ok ⟨.fraction n 0 1 offset, s.total⟩
    else .error (.invalidCharacter offset)
  | .fraction n num den good =>
    if Digits.isDigit c then do
      let den ← word (10 * den)
      let num ← word (10 * num + Digits.value c)
      .ok ⟨.fraction n num den next, s.total⟩
    else if isBlank c then .ok ⟨.fraction n num den next, s.total⟩
    else if isLetter c && den != 1 then .ok ⟨.unit ⟨n, some (num, den)⟩ [c], s.total⟩
    else .error (.invalidCharacter good)
  | .unit a name =>
    if Digits.isDigit c then do
      let total ← addTerm s.total a name
      .ok ⟨.whole (Digits.value c), total⟩
    else if isBlank c then do
      let total ← addTerm s.total a name
      .ok ⟨.lead next false, total⟩
    else if isLetter c then .ok ⟨.unit a (name ++ [c]), s.total⟩
    else .error (.invalidCharacter offset)

/-- The total when the text ends here. -/
def finish (s : State) : Except Fault Nat :=
  match s.phase with
  | .lead _ fresh => if fresh then .error .empty else .ok s.total
  | .whole n => addTerm s.total ⟨n, none⟩ []
  | .fraction n num den good =>
    if den = 1 then .error (.invalidCharacter good) else addTerm s.total ⟨n, some (num, den)⟩ []
  | .unit a name => addTerm s.total a name

def run (s : State) (offset : Nat) : List Char → Except Fault Nat
  | [] => finish s
  | c :: rest => do
    let next := offset + c.utf8Size
    let s ← step s offset next c
    run s next rest

/-- Total nanoseconds of a spelled duration; a lone zero needs no unit. -/
def nanos (s : List Char) : Except Fault Nat :=
  if s = ['0'] then .ok 0 else run initial 0 s

end RowGate.Duration.Spelled
