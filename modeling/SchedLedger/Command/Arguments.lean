import SchedLedger.Command.Request

/-! Reading the arguments of a command line. Options may stand on either side of the trace, have a long
and some also a short name, and are given at most once. A value is looked at when the next option or the
trace is recognised, so an argument that is not known wins over a wrong value right before it. -/

namespace SchedLedger

/-- The forms of an argument: `--`, `--name` or `--name=value`, `-abc`, and anything else. -/
inductive Argument
  | escape
  | long (name : String) (value : Option String)
  | short (names : List Char)
  | plain (text : String)
deriving DecidableEq, Repr

/-- A lone hyphen is plain, like the empty text. -/
def Argument.ofText (s : String) : Argument :=
  match s.toList with
  | ['-', '-'] => .escape
  | '-' :: '-' :: cs =>
    let name := String.ofList (cs.takeWhile (· ≠ '='))
    match cs.dropWhile (· ≠ '=') with
    | [] => .long name none
    | _ :: value => .long name (some (String.ofList value))
  | '-' :: c :: cs => .short (c :: cs)
  | _ => .plain s

inductive ReplayOption
  | trace
  | units
  | window
  | interval
  | topK
  | groupFilter
  | format
  | output
  | config
deriving DecidableEq, Repr

namespace ReplayOption

def name : ReplayOption → String
  | .trace => "trace"
  | .units => "units"
  | .window => "window"
  | .interval => "interval"
  | .topK => "topk"
  | .groupFilter => "cgroup-filter"
  | .format => "format"
  | .output => "output"
  | .config => "config"

def named : List ReplayOption :=
  [.units, .window, .interval, .topK, .groupFilter, .format, .output, .config]

def ofLong? (name : String) : Option ReplayOption :=
  named.find? (·.name = name)

def ofShort? : Char → Option ReplayOption
  | 'f' => some .format
  | 'o' => some .output
  | 'c' => some .config
  | _ => none

def number (o : ReplayOption) (value : String) : Except UsageError UInt64 :=
  (Text.readWord value).mapError (.badNumber o.name value)

def path (o : ReplayOption) (value : String) : Except UsageError String :=
  if value = "" then .error (.missingValue o.name) else .ok value

def choice (o : ReplayOption) (value : String) : Except UsageError ReportFormat :=
  match ReportFormat.ofName? value with
  | some f => .ok f
  | none => .error (.badChoice o.name value)

end ReplayOption

inductive Flag
  | verbose
  | showKernel
deriving DecidableEq, Repr

def Flag.name : Flag → String
  | .verbose => "verbose"
  | .showKernel => "show-kernel"

/-- A replay request while its arguments are read. `pending` is the option that was named last, with its
value once that is there; after `--` every argument is plain. -/
structure ReplayDraft where
  flags : List Flag
  trace : Option String
  units : Option UInt64
  window : Option UInt64
  interval : Option UInt64
  topK : Option UInt64
  groupFilter : Option String
  format : Option ReportFormat
  output : Option String
  config : Option String
  pending : Option (ReplayOption × Option String)
  escaped : Bool
deriving DecidableEq, Repr

namespace ReplayDraft

def empty : ReplayDraft :=
  ⟨[], none, none, none, none, none, none, none, none, none, none, false⟩

instance : Inhabited ReplayDraft := ⟨empty⟩

def once {α : Type} (o : ReplayOption) (old : Option α) (new : Except UsageError α) :
    Except UsageError (Option α) :=
  if old.isSome then .error (.repeated o.name) else new.map some

def assign (d : ReplayDraft) (o : ReplayOption) (value : String) : Except UsageError ReplayDraft :=
  match o with
  | .trace => return { d with trace := ← once o d.trace (o.path value) }
  | .units => return { d with units := ← once o d.units (o.number value) }
  | .window => return { d with window := ← once o d.window (o.number value) }
  | .interval => return { d with interval := ← once o d.interval (o.number value) }
  | .topK => return { d with topK := ← once o d.topK (o.number value) }
  | .groupFilter => return { d with groupFilter := ← once o d.groupFilter (.ok value) }
  | .format => return { d with format := ← once o d.format (o.choice value) }
  | .output => return { d with output := ← once o d.output (o.path value) }
  | .config => return { d with config := ← once o d.config (o.path value) }

def settle (d : ReplayDraft) : Except UsageError ReplayDraft :=
  match d.pending with
  | none => .ok d
  | some (o, none) => .error (.missingValue o.name)
  | some (o, some value) => { d with pending := none }.assign o value

def raise (d : ReplayDraft) (f : Flag) : Except UsageError ReplayDraft := do
  let d ← d.settle
  if f ∈ d.flags then .error (.repeated f.name)
  return { d with flags := f :: d.flags }

/-- Name an option; a value that is attached to the name is looked at on the spot. -/
def option (d : ReplayDraft) (o : ReplayOption) (value : Option String) :
    Except UsageError ReplayDraft := do
  let d ← d.settle
  match value with
  | some value => d.assign o value
  | none => return { d with pending := some (o, none) }

def askHelp (d : ReplayDraft) : Except UsageError ReplayDraft := do
  discard d.settle
  .error .help

def flag? : String → Option (ReplayDraft → Except UsageError ReplayDraft)
  | "verbose" => some (raise · .verbose)
  | "show-kernel" => some (raise · .showKernel)
  | "help" => some askHelp
  | _ => none

def long (d : ReplayDraft) (name : String) (value : Option String) : Except UsageError ReplayDraft :=
  match ReplayOption.ofLong? name, flag? name, value with
  | some o, _, _ => d.option o value
  | none, some f, none => f d
  | none, some _, some value => .error (.unexpectedValue name value)
  | none, none, _ => .error (.unknownArgument ("--" ++ name))

/-- The value attached to a short name: what follows it, without one equals sign in front. -/
def attached : List Char → Option String
  | [] => none
  | '=' :: cs => some (String.ofList cs)
  | cs => some (String.ofList cs)

/-- Short names written together; the first that takes a value ends them. -/
def short (d : ReplayDraft) : List Char → Except UsageError ReplayDraft
  | [] => .ok d
  | c :: cs =>
    match ReplayOption.ofShort? c with
    | some o => d.option o (attached cs)
    | none =>
      if c = 'v' then do short (← d.raise .verbose) cs
      else if c = 'h' then d.askHelp
      else .error (.unknownArgument (String.ofList ['-', c]))

def hasTrace (d : ReplayDraft) : Bool :=
  d.trace.isSome || (d.pending.map Prod.fst) == some .trace

def plain (d : ReplayDraft) (text : String) : Except UsageError ReplayDraft :=
  match d.pending, d.escaped with
  | some (o, none), false => .ok { d with pending := some (o, some text) }
  | _, _ =>
    if d.hasTrace then .error (.unknownArgument text)
    else return { ← d.settle with pending := some (.trace, some text) }

def step (d : ReplayDraft) (arg : String) : Except UsageError ReplayDraft :=
  if d.escaped then d.plain arg
  else
    match Argument.ofText arg with
    | .escape => .ok { d with escaped := true }
    | .long name value => d.long name value
    | .short names => d.short names
    | .plain text => d.plain text

def finish (d : ReplayDraft) : Except UsageError ReplayRequest := do
  let d ← d.settle
  if d.interval.isSome && d.window.isSome then .error (.exclusive "interval" "window")
  match d.trace with
  | none => .error (.missing "trace")
  | some trace =>
    return ⟨trace, d.units, d.window, d.interval, d.topK, .showKernel ∈ d.flags, d.groupFilter,
      d.format.getD .table, d.output, d.config⟩

end ReplayDraft

namespace Invocation

def ofReplay (verbose : Bool) (args : List String) : Except UsageError Invocation := do
  let d ← args.foldlM ReplayDraft.step .empty
  let request ← d.finish
  return ⟨verbose || .verbose ∈ d.flags, some request⟩

def ofHelp : List String → UsageError
  | [] | ["replay"] | ["help"] => .help
  | "replay" :: arg :: _ | "help" :: arg :: _ => .unknownCommand arg
  | arg :: _ => .unknownCommand arg

def setVerbose (verbose : Bool) : Except UsageError Bool :=
  if verbose then .error (.repeated "verbose") else .ok true

def short (verbose : Bool) : List Char → Except UsageError Bool
  | [] => .ok verbose
  | 'v' :: cs => do short (← setVerbose verbose) cs
  | 'h' :: _ => .error .help
  | 'V' :: _ => .error .version
  | c :: _ => .error (.unknownArgument (String.ofList ['-', c]))

def long (verbose : Bool) (name : String) (value : Option String) : Except UsageError Bool :=
  if name ∉ ["verbose", "help", "version"] then .error (.unknownArgument ("--" ++ name))
  else
    match value with
    | some value => .error (.unexpectedValue name value)
    | none =>
      if name = "verbose" then setVerbose verbose
      else .error (if name = "help" then .help else .version)

/-- After `--` no command can be named. -/
def escaped (verbose : Bool) : List String → Except UsageError Invocation
  | [] => .ok ⟨verbose, none⟩
  | arg :: _ =>
    .error (if arg = "replay" ∨ arg = "help" then .unknownArgument arg else .unknownCommand arg)

def read (verbose : Bool) : List String → Except UsageError Invocation
  | [] => .ok ⟨verbose, none⟩
  | arg :: args =>
    match Argument.ofText arg with
    | .plain "replay" => ofReplay verbose args
    | .plain "help" => .error (ofHelp args)
    | .plain text => .error (.unknownCommand text)
    | .escape => escaped verbose args
    | .long name value => do read (← long verbose name value) args
    | .short names => do read (← short verbose names) args

def ofArguments (args : List String) : Except UsageError Invocation :=
  read false args

end Invocation
end SchedLedger
