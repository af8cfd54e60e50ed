import SchedLedger.Render.Format
import SchedLedger.Settings.Basic

/-! What the command line can ask for, and why arguments may ask for nothing that can be run. -/

namespace SchedLedger

/-- A replay that is asked for. `window` and `interval` are counted in milliseconds. -/
structure ReplayRequest where
  trace : String
  units : Option UInt64
  window : Option UInt64
  interval : Option UInt64
  topK : Option UInt64
  showKernel : Bool
  groupFilter : Option String
  format : ReportFormat
  output : Option String
  config : Option String
deriving DecidableEq, Repr

def ReplayRequest.overrides (q : ReplayRequest) : Overrides :=
  ⟨q.topK, q.showKernel, q.groupFilter⟩

structure Invocation where
  verbose : Bool
  replay : Option ReplayRequest
deriving DecidableEq, Repr

/-- Why the arguments name nothing to run. The first two are wishes of their own. -/
inductive UsageError
  | help
  | version
  | unknownCommand (arg : String)
  | unknownArgument (arg : String)
  | repeated (name : String)
  | exclusive (name other : String)
  | missing (name : String)
  | missingValue (name : String)
  | unexpectedValue (name value : String)
  | badNumber (name value : String) (cause : Text.NumberError)
  | badChoice (name value : String)
deriving DecidableEq, Repr

def UsageError.message : UsageError → String
  | .help => "help was asked for"
  | .version => "the version was asked for"
  | .unknownCommand arg => s!"unknown command {arg}"
  | .unknownArgument arg => s!"unexpected argument {arg}"
  | .repeated name => s!"{name} can be given only once"
  | .exclusive name other => s!"{name} cannot be used with {other}"
  | .missing name => s!"{name} is required"
  | .missingValue name => s!"{name} needs a value"
  | .unexpectedValue name value => s!"{name} takes no value, but got {value}"
  | .badNumber name value cause => s!"invalid value {value} for {name}: " ++ cause.message
  | .badChoice name value => s!"invalid value {value} for {name}"

end SchedLedger
