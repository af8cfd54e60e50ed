import SchedLedger.Replay.Run
import SchedLedger.Settings.Basic

/-! Reports on a replay: one on all of it, or one on each interval. -/

namespace SchedLedger

/-- The memory that resident sizes are compared with: as set, or else as the process tree states it. One
byte stands for a size that is not known. -/
def Settings.memory (s : Settings) (host : Host) : UInt64 :=
  s.report.totalMemory.getD
    (match (host.procs s.procsRoot).totalMemory host.files with
    | .ok bytes => bytes
    | .error _ => 1)

namespace Replay

def reading (r : Replay) (procs : Procs) (files : Files) (topK : UInt64) (window : Span) :
    Except Failure Reading :=
  Reading.ofLedger r.ledger topK window fun pid => (r.tasks.nameOf procs files pid []).1

/-- The resident sizes of some processes: declared sizes as they are, and those of the process tree for
the processes without one. -/
def residentSizes (r : Replay) (procs : Procs) (files : Files) (pids : List Pid) :
    List (Pid × UInt64) :=
  r.tasks.residentSizes ++
    procs.residentSizes files (pids.filter fun pid => (r.tasks.residentSizes.lookup pid).isNone)

def report (r : Replay) (s : Settings) (host : Host) (window : Span) : Except Failure Report := do
  let procs := host.procs s.procsRoot
  let reading ← r.reading procs host.files s.report.topK window
  -- sizes are looked up for every process that was read, also for those that will be filtered out
  let sizes := r.residentSizes procs host.files reading.pids
  Report.build reading ⟨window, r.units⟩ sizes (s.memory host) s.report

def reports (s : Settings) (host : Host) (interval : Span) : Replay → List Window → Except Failure (List Report)
  | _, [] => return []
  | r, w :: ws => do
    let fed := (r.feed w.events).2
    let report ← fed.report s host interval
    return { report with index := w.index, start := w.start.toWord } :: (← reports s host interval fed.reset ws)

end Replay

namespace Trace

def report (t : Trace) (s : Settings) (host : Host) (units : Option UInt64) (window : Option Span) :
    Except Failure Report := do
  let o ← (t.replay units window s.capacities).mapError .settings
  o.replay.report s host o.window

def reports (t : Trace) (s : Settings) (host : Host) (units : Option UInt64) (interval : Span) :
    Except Failure (List Report) := do
  let r ← (Replay.forTrace t units s.capacities).mapError .settings
  r.reports s host interval (← (Window.split t.events interval).mapError .settings)

end Trace
end SchedLedger
