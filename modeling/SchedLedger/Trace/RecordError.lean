import SchedLedger.Json.Value

/-! What can be wrong with a record of a trace, in the words shown to its author. -/

namespace SchedLedger

inductive Kind
  | task
  | switch
  | fault
deriving DecidableEq, Repr

namespace Kind

def all : List Kind :=
  [.task, .switch, .fault]

def name : Kind → String
  | .task => "task"
  | .switch => "switch"
  | .fault => "fault"

def ofName? (name : String) : Option Kind :=
  all.find? (·.name = name)

def fields : Kind → List String
  | .task => ["pid", "comm", "cgroup", "rss_bytes"]
  | .switch => ["unit", "ts", "prev", "next"]
  | .fault => ["unit", "pid"]

def listForm : Kind → String
  | .task => "struct TaskSpec with 4 elements"
  | .switch => "struct SwitchEvent with 4 elements"
  | .fault => "struct FaultEvent with 2 elements"

end Kind

/-- The number of units that a trace may span. -/
def unitLimit : Nat := 4096

inductive RecordError
  | malformed (reason : String)
  | invalidType (found : Json.Value) (expected : String)
  | invalidValue (found : Json.Value) (expected : String)
  | invalidLength (found : Nat) (expected : String)
  | missingField (name : String)
  | duplicateField (name : String)
  | unknownKind (name : String)
  | idleTask
  | unitTooLarge (unit : UInt32)

def RecordError.message : RecordError → String
  | .malformed reason => reason
  | .invalidType found expected => "invalid type: " ++ found.describe ++ ", expected " ++ expected
  | .invalidValue found expected => "invalid value: " ++ found.describe ++ ", expected " ++ expected
  | .invalidLength found expected => s!"invalid length {found}, expected " ++ expected
  | .missingField name => "missing field `" ++ name ++ "`"
  | .duplicateField name => "duplicate field `" ++ name ++ "`"
  | .unknownKind name =>
    "unknown variant `" ++ name ++ "`, expected one of `task`, `switch`, `fault`"
  | .idleTask => "pid 0 is reserved for the idle task"
  | .unitTooLarge unit => s!"unit {unit} is beyond the supported {unitLimit} units"

end SchedLedger
