import RowGate.Files.Path

/-! # Files

What the program asks of a file system: to make directories with all that lead to them,
to read a file whole and to append to one. The operations are those of any monad, so that
they can be run on a real system and on a tree that is a value.
-/
namespace RowGate

inductive FileFault where
  | notFound
  | alreadyExists
  | notADirectory
  | isADirectory
  | nameTooLong
  | nameWithNul
  | notText
  | other (text : String)
  deriving DecidableEq, Repr

def FileFault.message : FileFault → String
  | .notFound => "No such file or directory (os error 2)"
  | .alreadyExists => "File exists (os error 17)"
  | .notADirectory => "Not a directory (os error 20)"
  | .isADirectory => "Is a directory (os error 21)"
  | .nameTooLong => "File name too long (os error 36)"
  | .nameWithNul => "file name contained an unexpected NUL byte"
  | .notText => "stream did not contain valid UTF-8"
  | .other text => text

/-- The single steps of a file system, by path. -/
structure FileSystem (m : Type → Type) where
  makeDirectory : String → m (Except FileFault Unit)
  isDirectory : String → m Bool
  isPresent : String → m Bool
  read : String → m (Except FileFault Octets)
  openAppend : String → m (Except FileFault Unit)

namespace FileSystem
variable {m : Type → Type} [Monad m]

/-- Makes the first of the paths, after the others if it has no place yet. -/
def makePath (fs : FileSystem m) : List String → m (Except FileFault Unit)
  | [] => pure (.ok ())
  | p :: parents => do
    let settled (f : FileFault) : m (Except FileFault Unit) := do
      if ← fs.isDirectory p then pure (.ok ()) else pure (.error f)
    match ← fs.makeDirectory p with
    | .ok _ => pure (.ok ())
    | .error .notFound =>
      match ← makePath fs parents with
      | .error f => pure (.error f)
      | .ok _ =>
        match ← fs.makeDirectory p with
        | .ok _ => pure (.ok ())
        | .error f => settled f
    | .error f => settled f

/-- A directory and all that lead to it; one that is there already is kept. -/
def makeDirectories (fs : FileSystem m) (p : String) : m (Except FileFault Unit) :=
  if p.isEmpty then pure (.ok ()) else fs.makePath (p :: Path.parents p)

/-- A file to append to, below directories that are made if need be. -/
def openLog (fs : FileSystem m) (p : String) : m (Except FileFault Unit) := do
  match Path.parent? p with
  | none => fs.openAppend p
  | some dir =>
    match ← fs.makeDirectories dir with
    | .error f => pure (.error f)
    | .ok _ => fs.openAppend p

end FileSystem
end RowGate
