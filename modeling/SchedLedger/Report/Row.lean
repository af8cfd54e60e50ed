import SchedLedger.Decimal.Fixed
import SchedLedger.Report.Finding

/-! A row: all figures of one process during a window, and what they amount to. -/

namespace SchedLedger

/-- The figures of a process. `costUndefined` marks a cost per fault of nothing divided by nothing,
which is no number. -/
structure Row where
  pid : Pid
  comm : String := ""
  group : String := ""
  cpuNs : UInt64 := 0
  cpuMs : Float := 0
  cpuPercent : Float := 0
  residentMb : Float := 0
  residentRatio : Float := 0
  faults : UInt64 := 0
  faultsPerSecond : Float := 0
  costPerFault : Float := 0
  costUndefined : Bool := false
  preempted : UInt64 := 0
  preemptsOthers : UInt64 := 0
  finding : Finding := .ok
deriving Inhabited

namespace Row

def isLarge (r : Row) : Bool :=
  r.residentMb > 1000.0 || r.residentRatio > 0.3

def costlyFaults (r : Row) (limit : Float) : Bool :=
  r.costPerFault > limit && r.faults > 0

def thrashes (r : Row) : Bool :=
  (r.faultsPerSecond > 1000.0 && r.costlyFaults 0.5) || (r.faultsPerSecond > 500.0 && r.costlyFaults 0.1)

/-- The first rule that applies. -/
def classify (r : Row) : Finding :=
  if r.isLarge && r.faultsPerSecond > 200.0 then .oomRisk
  else if r.cpuPercent > 50.0 && r.faultsPerSecond < 1.0 && r.preempted == 0 then .cpuBound
  else if r.cpuPercent < 20.0 && r.thrashes then .memThrashing
  else if r.preempted > 100 && r.cpuPercent < 10.0 then .starved
  else if r.preemptsOthers > 100 && r.cpuPercent > 30.0 then .noisyNeighbor
  else .ok

def summary (r : Row) : String :=
  let percent := Decimal.fixed 1 r.cpuPercent
  let rate := Decimal.fixed 0 r.faultsPerSecond
  match r.finding with
  | .memThrashing => s!"{rate} faults/sec, {percent}% CPU, preempted {r.preempted}x"
  | .starved => s!"preempted {r.preempted}x, only {percent}% CPU"
  | .noisyNeighbor => s!"steals CPU {r.preemptsOthers}x, running at {percent}%"
  | .cpuBound => s!"{percent}% CPU, faults/sec {rate}"
  | .oomRisk => "OOM risk - " ++ Decimal.fixed 1 (r.residentMb / 1024.0) ++ s!" GB RSS, {rate} faults/sec"
  | .ok => s!"{percent}% CPU, {rate} faults/sec"

end Row
end SchedLedger
