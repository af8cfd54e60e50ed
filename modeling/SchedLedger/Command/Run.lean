import SchedLedger.Command.Request
import SchedLedger.Replay.Report
import SchedLedger.Settings.Reader
import SchedLedger.Trace.Reader

/-! Running a replay that was asked for. -/

namespace SchedLedger.ReplayRequest

def settings (q : ReplayRequest) (files : Files) : Except Failure Settings :=
  ((Settings.load files q.config).map (·.withOverrides q.overrides)).mapError .settings

def render (q : ReplayRequest) (s : Settings) (t : Trace) (host : Host) : Except Failure String :=
  match q.interval with
  | some interval =>
    (t.reports s host q.units (.ofMillis interval)).map fun rs => renderWindows rs q.format
  | none => (t.report s host q.units (q.window.map .ofMillis)).map (·.render q.format)

/-- The text that the run yields. The settings are read first, then the trace. -/
def run (q : ReplayRequest) (host : Host) : Except Failure String := do
  let s ← q.settings host.files
  let t ← Trace.load host.files q.trace
  q.render s t host

def mentioned (t : Trace) : List Pid :=
  (t.events.flatMap fun
    | .switch _ _ prev next => [prev, next]
    | .fault _ pid => [pid]).mergeSort (· ≤ ·) |>.eraseReps

def paths (q : ReplayRequest) (host : Host) : List String :=
  q.config.toList ++ [q.trace] ++
    match q.settings host.files, Trace.load host.files q.trace with
    | .ok s, .ok t =>
      let procs := host.procs s.procsRoot
      procs.meminfoPath :: (mentioned t).flatMap fun pid => [procs.commPath pid, procs.statmPath pid]
    | _, _ => []

end SchedLedger.ReplayRequest
