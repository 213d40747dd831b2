import RowGate.Text.Digits
import RowGate.Text.Terminal
import RowGate.Width

/-! # Reading a command line

Arguments are options with two dashes or, some of them, one dash and a letter, and the
name of a command. The value of an option follows it or an equals sign. Options may only
be given once unless they collect. Reading goes from left to right; a value is looked at
when the next option begins, so that an unknown argument right after it is found first.
-/
namespace RowGate.Command

/-- What an option does when it is met. -/
inductive Effect where
  | record
  | help
  | version
  deriving DecidableEq, Repr

/-- What the value of an option may be. -/
inductive Accepted where
  | text
  | path
  | upTo (greatest : Nat)
  deriving DecidableEq, Repr

structure Flag where
  long : String
  short : Option Char := none
  /-- What a value stands for, if one is taken. -/
  placeholder : Option String := none
  accepts : Accepted := .text
  collects : Bool := false
  effect : Effect := .record
  deriving DecidableEq, Repr

def Flag.display (f : Flag) : String :=
  match f.placeholder with
  | some p => "--" ++ f.long ++ " <" ++ p ++ ">"
  | none => "--" ++ f.long

/-- What is wrong with a command line. -/
inductive UsageFault where
  | unexpected (argument : String)
  | unexpectedValue (value option : String)
  | valueRequired (option : String)
  | repeated (option : String)
  | invalidValue (value option reason : String)
  | unrecognized (command : String)
  | missingArguments
  | noCommand
  deriving DecidableEq, Repr

def programName : String := "pg2json"

/-- What the user wrote, as a terminal shows it. -/
def shown (s : String) : String := String.ofList (Text.visible s.toList)

def UsageFault.text : UsageFault → String
  | .unexpected argument => "unexpected argument '" ++ shown argument ++ "' found"
  | .unexpectedValue value option =>
    "unexpected value '" ++ shown value ++ "' for '" ++ option ++
      "' found; no more were expected"
  | .valueRequired option => "a value is required for '" ++ option ++ "' but none was supplied"
  | .repeated option => "the argument '" ++ option ++ "' cannot be used multiple times"
  | .invalidValue value option reason =>
    "invalid value '" ++ shown value ++ "' for '" ++ option ++ "': " ++ reason
  | .unrecognized command => "unrecognized subcommand '" ++ shown command ++ "'"
  | .missingArguments => "the following required arguments were not provided:"
  | .noCommand => "'" ++ programName ++ "' requires a subcommand but one was not provided"

def UsageFault.line (f : UsageFault) : String := "error: " ++ f.text

/-- Why reading stops before a command is known: something is wrong, nothing was given, or
help or the version was asked for. -/
inductive Stop where
  | fault (f : UsageFault)
  | nothing
  | help
  | version
  deriving DecidableEq, Repr

inductive NumberFault where
  | empty
  | invalidDigit
  | tooGreat
  | tooSmall
  deriving DecidableEq, Repr

def NumberFault.message : NumberFault → String
  | .empty => "cannot parse integer from empty string"
  | .invalidDigit => "invalid digit found in string"
  | .tooGreat => "number too large to fit in target type"
  | .tooSmall => "number too small to fit in target type"

/-- Digits after those that gave `n`; reading stops at the first one that passes a limit. -/
def digitsUpTo (limit : Nat) (passed : NumberFault) (n : Nat) :
    List Char → Except NumberFault Nat
  | [] => .ok n
  | c :: rest =>
    if !Digits.isDigit c then .error .invalidDigit
    else if limit < 10 * n + Digits.value c then .error passed
    else digitsUpTo limit passed (10 * n + Digits.value c) rest

def positive (digits : List Char) : Except NumberFault Int :=
  (digitsUpTo (wordBound 63 - 1) .tooGreat 0 digits).map Int.ofNat

def negative (digits : List Char) : Except NumberFault Int :=
  (digitsUpTo (wordBound 63) .tooSmall 0 digits).map (fun n => -(n : Int))

/-- A signed decimal that fits 64 bits, or what is wrong with it. -/
def integer : List Char → Except NumberFault Int
  | [] => .error .empty
  | ['-'] => .error .invalidDigit
  | ['+'] => .error .invalidDigit
  | '-' :: digits => negative digits
  | '+' :: digits => positive digits
  | digits => positive digits

/-- A natural up to some greatest one. -/
def boundedNatural (greatest : Nat) (s : List Char) : Except String Nat :=
  match integer s with
  | .error f => .error f.message
  | .ok i =>
    if 0 ≤ i ∧ i ≤ greatest then .ok i.toNat
    else .error (toString i ++ " is not in 0..=" ++ toString greatest)

/-- Values by option, in the order in which they were settled. -/
abbrev Values := List (String × String)

structure Scan where
  values : Values := []
  /-- An option whose value is not settled, and the value if it has been met. -/
  pending : Option (Flag × Option String) := none
  trailing : Bool := false

namespace Scan

def has (s : Scan) (f : Flag) : Bool := s.values.any (·.1 == f.long)

def checkValue (f : Flag) (value : String) : Except Stop Unit :=
  match f.accepts with
  | .text => .ok ()
  | .path => if value.isEmpty then .error (.fault (.valueRequired f.display)) else .ok ()
  | .upTo greatest =>
    match boundedNatural greatest value.toList with
    | .ok _ => .ok ()
    | .error reason => .error (.fault (.invalidValue value f.display reason))

def record (s : Scan) (f : Flag) (value : String) : Except Stop Scan := do
  if s.has f && !f.collects then .error (.fault (.repeated f.display))
  else do
    checkValue f value
    .ok { s with values := s.values ++ [(f.long, value)] }

/-- Settles the option that waits. -/
def settle (s : Scan) : Except Stop Scan :=
  match s.pending with
  | none => .ok s
  | some (f, none) => .error (.fault (.valueRequired f.display))
  | some (f, some value) => record { s with pending := none } f value

/-- An option without a value. -/
def meet (s : Scan) (f : Flag) : Except Stop Scan := do
  let s ← s.settle
  match f.effect with
  | .help => .error .help
  | .version => .error .version
  | .record => s.record f ""

/-- An option with a value, which may have to be waited for. -/
def take (s : Scan) (f : Flag) (value : Option String) : Except Stop Scan := do
  let s ← s.settle
  match value with
  | some v => s.record f v
  | none => .ok { s with pending := some (f, none) }

def long (flags : List Flag) (s : Scan) (body : List Char) : Except Stop Scan :=
  let (name, tail) := body.span (· != '=')
  let value := match tail with
    | [] => none
    | _ :: v => some (String.ofList v)
  match flags.find? (·.long == String.ofList name) with
  | none => .error (.fault (.unexpected ("--" ++ String.ofList name)))
  | some f =>
    match f.placeholder, value with
    | some _, value => s.take f value
    | none, some v => .error (.fault (.unexpectedValue v f.display))
    | none, none => s.meet f

/-- A cluster of letters; one that takes a value takes the rest. -/
def short (flags : List Flag) (s : Scan) : List Char → Except Stop Scan
  | [] => .ok s
  | c :: rest =>
    match flags.find? (·.short == some c) with
    | none => .error (.fault (.unexpected (String.ofList ['-', c])))
    | some f =>
      match f.placeholder with
      | none => do
        let s ← s.meet f
        short flags s rest
      | some _ =>
        match rest with
        | [] => s.take f none
        | '=' :: v => s.take f (some (String.ofList v))
        | v => s.take f (some (String.ofList v))

/-- An argument that is no option and no value. -/
def stray (commands : List String) (s : Scan) (argument : String) : UsageFault :=
  if commands.isEmpty || (s.trailing && commands.contains argument) then .unexpected argument
  else .unrecognized argument

def isWaiting (s : Scan) : Bool :=
  match s.pending with
  | some (_, none) => true
  | _ => false

/-- The arguments up to the name of a command, and that name with the arguments after it. -/
def run (flags : List Flag) (commands : List String) (s : Scan) :
    List String → Except Stop (Scan × Option (String × List String))
  | [] => .ok (s, none)
  | a :: rest =>
    if s.trailing then .error (.fault (stray commands s a))
    else if !s.isWaiting && commands.contains a then .ok (s, some (a, rest))
    else match a.toList with
      | ['-', '-'] => run flags commands { s with trailing := true } rest
      | '-' :: '-' :: body => do
        let s ← s.long flags body
        run flags commands s rest
      | '-' :: c :: body => do
        let s ← s.short flags (c :: body)
        run flags commands s rest
      | _ =>
        match s.pending with
        | some (f, none) => run flags commands { s with pending := some (f, some a) } rest
        | _ => .error (.fault (stray commands s a))

end Scan

end RowGate.Command
