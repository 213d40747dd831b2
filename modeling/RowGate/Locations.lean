import RowGate.Files.Path

/-! # Where the program keeps its files

Settings and logs stand below one base directory, which is below the home directory
unless another is given.
-/
namespace RowGate

structure Locations where
  base : String
  deriving DecidableEq

namespace Locations

def baseName : String := ".pg2json"
def settingsName : String := "config.json"
def logsName : String := "logs"
def logName : String := "pg2json.jsonl"

def ofHome (home : String) : Locations := ⟨Path.join home baseName⟩

def settingsFile (l : Locations) : String := Path.join l.base settingsName
def logDirectory (l : Locations) : String := Path.join l.base logsName
def logFile (l : Locations) : String := Path.join l.logDirectory logName

end Locations
end RowGate
