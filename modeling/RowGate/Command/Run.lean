import RowGate.Command.Dispatch
import RowGate.Command.Failure
import RowGate.Locations
import RowGate.Log.Options
import RowGate.Redis.Store

/-! # A run of the program

The arguments are read, the directories made, the settings loaded and the log opened; the
session store is reached if the command needs it; then the command runs. All that a run
needs from outside is given as a machine over a monad.
-/
namespace RowGate.Command
open Log (Event Filter Level)

/-- What a run can do. -/
structure Machine (m : Type → Type) where
  files : FileSystem m
  /-- Keeps an event that has passed, in a log of the given kind. -/
  keep : Log.Options → Event → m Unit
  /-- Reaches the session store at a URL; none when that takes too long. -/
  reachStore : String → Duration → m (Option (Except StoreFault Unit))
  /-- Runs a program, with events told as they come. -/
  perform : {α : Type} → Settings → (Event → m Unit) → Service.Program α → m (Service.Result α)

/-- How the program ends and what it prints. -/
structure Outcome where
  code : Nat
  output : String := ""
  complaint : String := ""
  deriving DecidableEq

def homeVariable : String := "HOME"

def version : String := "0.1.0"

def versionLine : String := programName ++ " " ++ version ++ "\n"

/-- How the help begins; the lists of commands and of options that follow are left out. -/
def helpText : String :=
  "Read PostgreSQL tables as JSON through short-lived encrypted sessions\n\nUsage: " ++
    programName ++ " [OPTIONS] <COMMAND>\n"

def usageCode : Nat := 2

def Outcome.ofStop : Stop → Outcome
  | .fault f => ⟨usageCode, "", f.line ++ "\n"⟩
  | .nothing => ⟨usageCode, "", helpText⟩
  | .help => ⟨0, helpText, ""⟩
  | .version => ⟨0, versionLine, ""⟩

def brokenCode : Nat := 101

/-- The end of a run that breaks off. -/
def Outcome.broken (why : String) : Outcome := ⟨brokenCode, "", why ++ "\n"⟩

/-- Why a run breaks off whose filter cannot be cut into its parts. -/
def tornFilter : String := "the log filter has a part that begins or ends inside a character"

def Outcome.ofFailure (f : Failure) : Outcome := ⟨Failure.failureCode, "", f.text⟩

def Outcome.ofReply (r : Reply) : Outcome := ⟨r.code, r.text, ""⟩

def locations (lookup : Settings.Lookup) (base : Option String) :
    Except Settings.Fault Locations :=
  match base with
  | some b => .ok ⟨b⟩
  | none =>
    match lookup homeVariable with
    | some home => if home.isEmpty then .error .noHome else .ok (.ofHome home)
    | none => .error .noHome

/-- What has been made ready for a command. -/
structure Prepared where
  settings : Settings
  log : Log.Options
  filter : Option Filter

section Setup
variable {m : Type → Type} [Monad m]

def settingsOf (fs : FileSystem m) (lookup : Settings.Lookup) (path : String) :
    ExceptT Settings.Fault m Settings := do
  if ← fs.isPresent path then
    match ← fs.read path with
    | .error f => throw (.file f)
    | .ok content => Settings.load (some content) lookup
  else Settings.load none lookup

def fileStep (step : m (Except FileFault Unit)) : ExceptT Settings.Fault m Unit := do
  match ← (step : m (Except FileFault Unit)) with
  | .error f => throw (.file f)
  | .ok _ => pure ()

/-- Everything before the command itself. -/
def prepare (fs : FileSystem m) (lookup : Settings.Lookup) (i : Invocation) :
    ExceptT Settings.Fault m Prepared := do
  let places ← locations lookup i.base
  fileStep (fs.makeDirectories places.base)
  fileStep (fs.makeDirectories places.logDirectory)
  let settings ← settingsOf fs lookup places.settingsFile
  let level := Level.ofText (i.logLevel.getD settings.logLevel)
  match ← fs.openLog places.logFile with
  | .error f => throw (.logFile places.logFile f)
  | .ok _ =>
    pure ⟨settings, { level := level, path := some places.logFile, echoed := i.verbose },
      Filter.choose (lookup Log.filterVariable) level⟩

/-- Trying a login leaves the session store alone. -/
def needsStore : Command → Bool
  | .testConnection _ => false
  | _ => true

def reach (machine : Machine m) (settings : Settings) (tell : Event → m Unit) (c : Command) :
    m (Except Failure Unit) := do
  if needsStore c then
    match ← machine.reachStore settings.redisUrl settings.operationLimit with
    | none => pure (.error .storeTimeout)
    | some (.error f) => pure (.error (.ofStore f))
    | some (.ok _) => do
      tell Redis.connected
      pure (.ok ())
  else pure (.ok ())

/-- The run of a command for which everything is ready. -/
def serve (machine : Machine m) (p : Prepared) (filter : Filter) (c : Command) :
    m (Option Outcome) := do
  let tell (e : Event) : m Unit := if filter.admits e then machine.keep p.log e else pure ()
  tell (Log.opened (p.log.path.getD ""))
  match ← reach machine p.settings tell c with
  | .error f => pure (some (.ofFailure f))
  | .ok _ =>
    match ← machine.perform p.settings tell (reply p.settings c) with
    | .value r => pure (some (.ofReply r))
    | .broken why => pure (some (.broken why))
    | .endless => pure none

/-- A run with given variables and arguments; none when it does not end. -/
def run (machine : Machine m) (lookup : Settings.Lookup) (arguments : List String) :
    m (Option Outcome) := do
  match Invocation.parse lookup arguments with
  | .error stop => pure (some (.ofStop stop))
  | .ok i =>
    match ← (prepare machine.files lookup i).run with
    | .error f => pure (some (.ofFailure (.ofSettings f)))
    | .ok p =>
      match p.filter with
      | none => pure (some (.broken tornFilter))
      | some filter => serve machine p filter i.command

end Setup
end RowGate.Command
