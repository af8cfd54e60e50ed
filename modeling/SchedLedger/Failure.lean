import SchedLedger.Host.Files
import SchedLedger.Trace.RecordError

/-! Everything that can stop a run. -/

namespace SchedLedger

inductive SettingsError
  | invalidYaml (reason : String)
  | unreadable (path : String) (cause : IoError)
  | emptyTable (table : String)
  | largeTable (table : String) (capacity : UInt64)
  | noUnits
  | tooManyUnits (units : UInt64)
  | emptyInterval
deriving DecidableEq, Repr

def capacityLimit : Nat := 1048576

def SettingsError.message : SettingsError → String
  | .invalidYaml reason => reason
  | .unreadable path cause => s!"failed to read {path}: " ++ cause.message
  | .emptyTable table => s!"capacity of table {table} must be greater than zero"
  | .largeTable table capacity =>
    s!"capacity of table {table} is {capacity}, the limit is {capacityLimit}"
  | .noUnits => "unit count must be greater than zero"
  | .tooManyUnits units => s!"unit count {units} exceeds the supported {unitLimit}"
  | .emptyInterval => "interval must be greater than zero"

/-- Products of words are taken without a check; one that does not fit aborts the run. -/
inductive Failure
  | settings (cause : SettingsError)
  | trace (line : Nat) (cause : RecordError)
  | io (cause : IoError)
  | overflow

def Failure.message : Failure → String
  | .settings cause => "Configuration error: " ++ cause.message
  | .trace line cause => s!"Trace error at line {line}: " ++ cause.message
  | .io cause => "IO error: " ++ cause.message
  | .overflow => "attempt to multiply with overflow"

end SchedLedger
