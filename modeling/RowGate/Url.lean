import RowGate.Network.Address

/-! # URLs

A URL is a scheme, after two slashes an authority, a path and a query. The schemes here are
none of those with rules of their own, so a host is any text without certain characters.
Parts of the path that are dots are resolved as it is read.
-/
namespace RowGate

structure Url where
  scheme : String
  user : List Char := []
  password : Option (List Char) := none
  host : Option String := none
  port : Option Nat := none
  /-- The path, percent signs and all; without a host it may lack the slash in front. -/
  path : List Char := []
  query : List Char := []

namespace Url
open Text (split)

/-- Control characters and blanks at the ends are dropped, tabs and line ends everywhere. -/
def cleaned (s : List Char) : List Char :=
  let outer (c : Char) : Bool := c.toNat ≤ 0x20
  (((s.dropWhile outer).reverse.dropWhile outer).reverse).filter
    (fun c => c != '\t' && c != '\n' && c != '\r')

def isSchemeChar (c : Char) : Bool := c.isAlphanum || c = '+' || c = '-' || c = '.'

/-- The scheme in lower case, and what follows its colon. -/
def scheme? (s : List Char) : Option (String × List Char) :=
  match s with
  | [] => none
  | c :: _ =>
    if c.isAlpha then
      match s.span isSchemeChar with
      | (name, ':' :: rest) => some (String.ofList (name.map Char.toLower), rest)
      | _ => none
    else none

/-- A dot is also what its number stands for. -/
def undotted : List Char → List Char
  | '%' :: '2' :: 'e' :: rest => '.' :: undotted rest
  | '%' :: '2' :: 'E' :: rest => '.' :: undotted rest
  | c :: rest => c :: undotted rest
  | [] => []

def isHere (part : List Char) : Bool := undotted part == ['.']
def isUp (part : List Char) : Bool := undotted part == ['.', '.']

/-- A part that names a drive is not gone up from; a backslash may end the name. -/
def isDrive : List Char → Bool
  | c :: d :: rest =>
    c.isAlpha && (d = ':' || d = '|') && (rest.isEmpty || rest.head? == some '\\')
  | _ => false

/-- One part less, of parts with the last one first. -/
def shortened : List (List Char) → List (List Char)
  | [] => []
  | p :: ps => if isDrive p then p :: ps else ps

/-- The parts after those already kept, which stand last one first; dots at the end leave an
empty part. -/
def resolvedAfter (kept : List (List Char)) : List (List Char) → List (List Char)
  | [] => kept.reverse
  | p :: rest =>
    let kept := if isUp p then shortened kept else if isHere p then kept else p :: kept
    if rest.isEmpty && (isUp p || isHere p) then ([] :: kept).reverse else resolvedAfter kept rest

/-- A path that begins with a slash, without dots for parts. -/
def resolved : List Char → List Char
  | '/' :: rest => (resolvedAfter [] (split '/' rest)).flatMap ('/' :: ·)
  | path => path

/-- The parts before and after the last sign that separates a login from a host. -/
def splitLogin (s : List Char) : Option (List Char × List Char) :=
  match s.reverse.span (· != '@') with
  | (host, '@' :: login) => some (login.reverse, host.reverse)
  | _ => none

/-- A user and a password; an empty password is none. -/
def login (s : List Char) : List Char × Option (List Char) :=
  match s.span (· != ':') with
  | (user, _ :: c :: password) => (user, some (c :: password))
  | (user, _) => (user, none)

def isForbidden (c : Char) : Bool :=
  c.toNat = 0 || c = ' ' || c = '<' || c = '>' || c = '@' || c = '[' || c = '\\' || c = ']' ||
    c = '^' || c = '|'

/-- A host and what follows it; a coloned address stands in brackets. -/
def host? (s : List Char) : Option (List Char × List Char) :=
  match s with
  | '[' :: rest =>
    match rest.span (· != ']') with
    | (inner, ']' :: tail) =>
      if Network.isColoned inner && (tail.isEmpty || tail.head? == some ':') then some (inner, tail)
      else none
    | _ => none
  | s =>
    let (name, tail) := s.span (· != ':')
    if name.any isForbidden then none else some (name, tail)

/-- A port, if one is given, and what follows it; a backslash belongs to the path. -/
def port? (s : List Char) : Option (Option Nat × List Char) :=
  match s with
  | ':' :: rest =>
    let (digits, tail) := rest.span Digits.isDigit
    let n := Digits.read 0 digits
    if 65535 < n || !(tail.isEmpty || tail.head? == some '\\') then none
    else some (if digits.isEmpty then none else some n, tail)
  | s => some (none, s)

def endsAuthority (c : Char) : Bool := c = '/' || c = '?' || c = '#'

/-- The query of what follows a path, up to the fragment. -/
def queryOf (s : List Char) : List Char :=
  match s with
  | '?' :: rest => rest.takeWhile (· != '#')
  | _ => []

def isPathChar (c : Char) : Bool := c != '?' && c != '#'

/-- What follows the two slashes before an authority. -/
def withAuthority (scheme : String) (s : List Char) : Option Url := do
  let (front, after) := s.span (fun c => !endsAuthority c)
  let (path, tail) := after.span isPathChar
  let (user, password, rest, bare) := match splitLogin front with
    | some (l, rest) => let (user, password) := login l; (user, password, rest, l.isEmpty)
    | none => ([], none, front, false)
  let (name, rest) ← host? rest
  let (port, leftover) ← port? rest
  let path := if leftover.isEmpty then path else '/' :: (leftover ++ path)
  if name.isEmpty && (!rest.isEmpty || !user.isEmpty || password.isSome ||
      (bare && !after.isEmpty)) then none
  else
    let host := if name.isEmpty then none else some (String.ofList (Text.percentEncoded name))
    some ⟨scheme, user, password, host, port, resolved path, queryOf tail⟩

/-- What follows a colon that no two slashes follow. -/
def withoutAuthority (scheme : String) (s : List Char) : Url :=
  let (path, tail) := s.span isPathChar
  { scheme, path := resolved path, query := queryOf tail }

def parse (s : String) : Option Url := do
  let (scheme, rest) ← scheme? (cleaned s.toList)
  match rest with
  | '/' :: '/' :: rest => withAuthority scheme rest
  | rest => some (withoutAuthority scheme rest)

/-- A field is a name and, after an equals sign, a value. -/
def field (s : List Char) : String × String :=
  let (name, value) := s.span (· != '=')
  (Text.fieldText name, Text.fieldText (value.drop 1))

def fields (u : Url) : List (String × String) :=
  ((split '&' u.query).filter (fun p => !p.isEmpty)).map field

/-- The value of a field; of several with one name the last counts. -/
def value? (u : Url) (name : String) : Option String := u.fields.reverse.lookup name

end Url
end RowGate
