import SchedLedger.Command.Arguments
import SchedLedger.Command.Run

/-! The command line program: it reads the files that a run asks for, and writes what the run yields. -/

namespace SchedLedger

def usageText : String :=
  "\n".intercalate
    ["Usage: hotspot [-v] replay <TRACE> [OPTIONS]", "",
     "  --units <N>              number of execution units",
     "  --window <MS>            length of the window",
     "  --interval <MS>          report on every interval of this length",
     "  --topk <N>               processes shown in each section",
     "  --show-kernel            show kernel threads",
     "  --cgroup-filter <TEXT>   show processes of matching groups only",
     "  -f, --format <FORMAT>    table, json, yaml or prometheus",
     "  -o, --output <FILE>      write the report to a file",
     "  -c, --config <FILE>      settings in YAML",
     "  -v, --verbose            say more",
     "  -h, --help               show this text"]

/-- The number of a failure, which some calls report with its sign turned. -/
def systemCode (code : UInt32) : UInt32 :=
  min code (0 - code)

def IoError.ofSystem (e : IO.Error) : IoError :=
  match e with
  | .noFileOrDirectory _ _ _ => .notFound
  | .inappropriateType _ code _ =>
    if systemCode code = 20 then .notDirectory
    else if systemCode code = 21 then .isDirectory
    else .other (toString e)
  | _ => .other (toString e)

def readFiles (paths : List String) : IO Files := do
  let mut known : List (String × Except IoError Bytes) := []
  for path in paths do
    if (known.lookup path).isNone then
      let content ← try
          pure (.ok (← IO.FS.readBinFile path).toList)
        catch e => pure (.error (.ofSystem e))
      known := (path, content) :: known
  return fun path => (known.lookup path).getD (.error .notFound)

def deliver (text : String) : Option String → IO (Except Failure Unit)
  | none => do
    (← IO.getStdout).putStr text
    return .ok ()
  | some path =>
    try
      IO.FS.writeFile path text
      return .ok ()
    catch e => return .error (.io (.ofSystem e))

/-- Run a replay. What it reads besides the trace is known once settings and trace are. -/
def perform (q : ReplayRequest) : IO (Except Failure Unit) := do
  let known ← readFiles (q.paths ⟨fun _ => .error .notFound, .fallback⟩)
  let files ← readFiles (q.paths ⟨known, .fallback⟩)
  match q.run ⟨files, .fallback⟩ with
  | .ok text => deliver text q.output
  | .error e => return .error e

def complain (text : String) (code : UInt32) : IO UInt32 := do
  IO.eprintln text
  return code

def serve (args : List String) : IO UInt32 := do
  match Invocation.ofArguments args with
  | .error .help => IO.println usageText; return 0
  | .error .version => IO.println s!"hotspot {Report.version}"; return 0
  | .error e => complain s!"error: {e.message}" 2
  | .ok ⟨_, none⟩ => complain "No command specified. Use --help for usage information." 1
  | .ok ⟨verbose, some q⟩ =>
    match ← perform q with
    | .error .overflow => complain Failure.overflow.message 134
    | .error e => complain s!"Error: {e.message}" 1
    | .ok () =>
      if verbose then IO.eprintln s!"Replayed {q.trace}"
      return 0

end SchedLedger

def main (args : List String) : IO UInt32 :=
  SchedLedger.serve args
