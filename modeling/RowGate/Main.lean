import RowGate.Command.Offline
import RowGate.Log.Entry
import RowGate.Log.Timestamp
import Std.Time.DateTime.Timestamp

/-! # The program

The outermost layer: files, the clock, random octets and the streams of the process.
-/
open RowGate RowGate.Command

/-- The number that the system gives to an error, where it gives one. -/
def systemCode : IO.Error → Nat
  | .alreadyExists _ c _ => c.toNat
  | .noFileOrDirectory _ c _ => c.toNat
  | .inappropriateType _ c _ => c.toNat
  | .invalidArgument _ c _ => c.toNat
  | .resourceExhausted _ c _ => c.toNat
  | .otherError c _ => c.toNat
  | _ => 0

def fileFault (e : IO.Error) : FileFault :=
  match systemCode e with
  | 2 => .notFound
  | 17 => .alreadyExists
  | 20 => .notADirectory
  | 21 => .isADirectory
  | 36 => .nameTooLong
  | _ => .other e.toString

def guarded {α : Type} (step : IO α) : IO (Except FileFault α) := do
  match ← step.toBaseIO with
  | .ok a => pure (.ok a)
  | .error e => pure (.error (fileFault e))

/-- A directory can be opened but not read. -/
def readsAsDirectory (path : String) : IO Bool := do
  match ← guarded (do let h ← IO.FS.Handle.mk path .read; h.read 1) with
  | .error .isADirectory => pure true
  | _ => pure false

def systemFiles : FileSystem IO where
  makeDirectory p := guarded (IO.FS.createDir p)
  isDirectory := readsAsDirectory
  isPresent p := do
    match ← guarded (IO.FS.Handle.mk p .read) with
    | .ok _ => pure true
    | .error _ => pure false
  read p := guarded (do pure (← IO.FS.readBinFile p).toList)
  openAppend p := guarded (do let _ ← IO.FS.Handle.mk p .append)

def microsNow : IO Nat := do
  let t ← Std.Time.Timestamp.now
  pure (t.toNanosecondsSinceUnixEpoch.val.toNat / 1000)

/-- The number of this process, from the system's table of processes. -/
def processNumber : IO Nat := do
  match ← guarded (IO.FS.readFile "/proc/self/stat") with
  | .ok s => pure (Digits.read 0 (s.toList.takeWhile Digits.isDigit))
  | .error _ => pure 0

/-- Appends the line of an event, and shows it if that is wanted. -/
def keepEvent (o : Log.Options) (e : Log.Event) : IO Unit := do
  let stamp := Log.Timestamp.text (← microsNow)
  let entry := Log.Entry.ofEvent ⟨stamp, o.service, ← processNumber, none, none, none⟩ e
  match o.path with
  | none => pure ()
  | some path => do
    let _ ← guarded do
      let h ← IO.FS.Handle.mk path .append
      for piece in entry.pieces do
        h.write (ByteArray.mk (Utf8.encode piece).toArray)
        h.flush
  if o.echoed then
    IO.eprintln (stamp ++ " " ++ entry.level.name ++ " " ++ entry.message)

def surroundings : IO Offline.Surroundings := do
  let count := 8
  let all := (← IO.getRandomBytes (16 * count).toUSize).toList
  pure { random := fun i => (all.drop (16 * (i % count))).take 16 }

def variableNames : List String :=
  [homeVariable, Log.filterVariable, passwordVariable, secretVariable] ++
    Settings.Variable.all.map Settings.Variable.name

def main (arguments : List String) : IO UInt32 := do
  let values ← variableNames.filterMapM fun name => do
    pure ((← IO.getEnv name).map (fun v => (name, v)))
  let machine := Offline.machine systemFiles keepEvent IO.monoNanosNow surroundings
  match ← run machine (fun name => values.lookup name) arguments with
  | none => pure 1
  | some outcome => do
    IO.print outcome.output
    IO.eprint outcome.complaint
    pure (UInt32.ofNat outcome.code)
