import RowGate.Files

/-! # File trees

A file system as a value: files and directories under the parts of their names from the
root, and the directory at which relative paths start. Two dots go back by one part, once
all before them has been found to be a directory.
-/
namespace RowGate

inductive FileNode where
  | file (content : Octets)
  | directory
  deriving DecidableEq

structure FileTree where
  nodes : List (List String × FileNode) := []
  here : List String := []

namespace FileTree

/-- Octets that a name may have. -/
def nameLimit : Nat := 255

/-- Octets that a path may have, its end included. -/
def pathLimit : Nat := 4096

def node? (t : FileTree) (spot : List String) : Option FileNode :=
  if spot.isEmpty then some .directory else t.nodes.lookup spot

def put (t : FileTree) (spot : List String) (n : FileNode) : FileTree :=
  { t with nodes := (spot, n) :: t.nodes.filter (fun e => e.1 != spot) }

def tooLong (part : String) : Bool := nameLimit < (Utf8.octets part).length

/-- The node of one part below a place that must be a directory. -/
def enter (t : FileTree) (place : List String) (part : String) : Except FileFault (List String) :=
  match t.node? place with
  | none => .error .notFound
  | some (.file _) => .error .notADirectory
  | some .directory =>
    if part = "." then .ok place
    else if part = ".." then .ok place.dropLast
    else if tooLong part then .error .nameTooLong
    else .ok (place ++ [part])

/-- The place that the parts lead to; all but the last must be there. -/
def place (t : FileTree) (start : List String) (parts : List String) :
    Except FileFault (List String) :=
  parts.foldlM (t.enter) start

def acceptable (p : String) : Except FileFault Unit :=
  if p.isEmpty then .error .notFound
  else if p.toList.any (·.toNat == 0) then .error .nameWithNul
  else if pathLimit ≤ (Utf8.octets p).length then .error .nameTooLong
  else .ok ()

def locate (t : FileTree) (p : String) : Except FileFault (List String) := do
  acceptable p
  t.place (if Path.isAbsolute p then [] else t.here) (Path.parts p)

/-- A last part that names the place it stands in or the one before it. -/
def endsInDots (p : String) : Bool :=
  match (Path.parts p).getLast? with
  | some part => part = "." || part = ".."
  | none => true

def find (t : FileTree) (p : String) : Except FileFault FileNode := do
  let spot ← t.locate p
  match t.node? spot with
  | none => .error .notFound
  | some (.file content) =>
    if Path.endsInSlash p then .error .notADirectory else .ok (.file content)
  | some .directory => .ok .directory

/-- Whether octets are the path of something in the tree. -/
def look (t : FileTree) (path : Octets) : Except FileFault Unit :=
  match Utf8.text path with
  | .ok p => (t.find p).map (fun _ => ())
  | .error _ => .error .notFound

def isDirectory (t : FileTree) (p : String) : Bool :=
  match t.find p with
  | .ok .directory => true
  | _ => false

def isPresent (t : FileTree) (p : String) : Bool :=
  match t.find p with
  | .ok _ => true
  | .error _ => false

def makeDirectory (t : FileTree) (p : String) : Except FileFault FileTree := do
  let spot ← t.locate p
  if endsInDots p then .error .alreadyExists
  else match t.node? spot with
    | some _ => .error .alreadyExists
    | none => .ok (t.put spot .directory)

def read (t : FileTree) (p : String) : Except FileFault Octets := do
  match ← t.find p with
  | .directory => .error .isADirectory
  | .file content => .ok content

/-- The directory that the last part of a path stands in. -/
def locateParent (t : FileTree) (p : String) : Except FileFault (List String) := do
  acceptable p
  let place ← t.place (if Path.isAbsolute p then [] else t.here) (Path.parts p).dropLast
  t.enter place "."

/-- A file that is not there yet is made empty. What can only name a directory is refused
before its last part is looked at. -/
def openAppend (t : FileTree) (p : String) : Except FileFault FileTree := do
  if endsInDots p || Path.endsInSlash p then
    let _ ← t.locateParent p
    .error .isADirectory
  else
    let spot ← t.locate p
    match t.node? spot with
    | some .directory => .error .isADirectory
    | some (.file _) => .ok t
    | none => .ok (t.put spot (.file []))

/-- Puts octets behind those of a file. -/
def append (t : FileTree) (p : String) (octets : Octets) : Except FileFault FileTree := do
  let content ← t.read p
  let spot ← t.locate p
  .ok (t.put spot (.file (content ++ octets)))

def change (f : FileTree → Except FileFault FileTree) : StateM FileTree (Except FileFault Unit) :=
  fun t => match f t with
    | .ok u => (.ok (), u)
    | .error e => (.error e, t)

/-- The file system whose state is a tree. -/
def system : FileSystem (StateM FileTree) where
  makeDirectory p := change (·.makeDirectory p)
  isDirectory p := do pure ((← get).isDirectory p)
  isPresent p := do pure ((← get).isPresent p)
  read p := do pure ((← get).read p)
  openAppend p := change (·.openAppend p)

end FileTree
end RowGate
