import RowGate.Text.Split
import RowGate.Text.Utf8

/-! # Path texts

A path is a text with slashes between its parts. Empty parts and single dots name
nothing, a slash in front starts at the root, and a path has its shorter beginnings as
ancestors.
-/
namespace RowGate.Path

/-- A name below a directory; the slash between them is left out where none is needed. -/
def join (dir name : String) : String :=
  match dir.toList.getLast? with
  | none => name
  | some c => if c = '/' then dir ++ name else dir ++ "/" ++ name

def isAbsolute (p : String) : Bool := p.toList.head? == some '/'

/-- The parts between the slashes, empty ones left out. -/
def parts (p : String) : List String :=
  ((Text.split '/' p.toList).filter (fun part => !part.isEmpty)).map String.ofList

/-- A path that can only name a directory. -/
def endsInSlash (p : String) : Bool := p.toList.getLast? == some '/'

def ofParts (absolute : Bool) (ps : List String) : String :=
  (if absolute then "/" else "") ++ "/".intercalate ps

/-- Shorter beginnings of a path, the longest first. -/
def parents (p : String) : List String :=
  let ps := (parts p).filter (· != ".")
  ((List.range (ps.length - 1)).reverse.map (fun n => ofParts (isAbsolute p) (ps.take (n + 1))))

def parent? (p : String) : Option String := (parents p).head?

end RowGate.Path
