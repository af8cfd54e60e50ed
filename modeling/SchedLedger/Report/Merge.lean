import SchedLedger.Account.Ranking
import SchedLedger.Report.Row

/-! Merging what was read from the tables into one row per process. -/

namespace SchedLedger

structure Reading where
  cpu : List CpuUsage
  faults : List FaultCount
  handoffs : List HandoffCount
  usage : List Usage

structure Extent where
  window : Span
  units : UInt64

def Extent.capacity (e : Extent) : Float :=
  Float.ofNat e.window.nanos * e.units.toFloat

/-- Change the row of a process in a list that ascends by process, or put a new row in its place. The
idle task has no row. -/
def touch (pid : Pid) (f : Row → Row) (rows : List Row) : List Row :=
  if pid = 0 then rows else go rows
where
  go : List Row → List Row
    | [] => [f { pid := pid }]
    | r :: rest =>
      if pid < r.pid then f { pid := pid } :: r :: rest
      else if pid = r.pid then f r :: rest
      else r :: go rest

def orText (old new : String) : String :=
  if old = "" then new else old

namespace Row

/-- Enter CPU time. The name of the entry replaces any other. -/
def withCpu (e : Extent) (u : CpuUsage) (r : Row) : Row :=
  { r with
    comm := u.comm
    group := orText r.group u.group
    cpuNs := u.ns
    cpuMs := u.ns.toFloat / 1e6
    -- of a window without length or units the old value stays
    cpuPercent := if e.capacity > 0.0 then 100.0 * u.ns.toFloat / e.capacity else r.cpuPercent }

def withFaults (c : FaultCount) (r : Row) : Row :=
  { r with
    comm := orText r.comm c.comm
    group := orText r.group c.group
    faults := c.faults
    faultsPerSecond := c.perSecond }

def asVictim (c : HandoffCount) (r : Row) : Row :=
  { r with comm := orText r.comm c.victimComm, preempted := r.preempted + c.count }

def asAggressor (c : HandoffCount) (r : Row) : Row :=
  { r with comm := orText r.comm c.aggressorComm, preemptsOthers := r.preemptsOthers + c.count }

def bytesPerMb : Float :=
  1024.0 * 1024.0

/-- The fault rate of a row: the one that was read, or the count over the window if none was. -/
def faultRate (window : Span) (r : Row) : Float :=
  if r.faultsPerSecond == 0.0 && r.faults > 0 then r.faults.toFloat / window.rateSeconds
  else r.faultsPerSecond

def complete (e : Extent) (resident : Pid → Option UInt64) (memory : UInt64) (r : Row) : Row :=
  let mb := match resident r.pid with
    | some bytes => bytes.toFloat / bytesPerMb
    | none => r.residentMb
  let time := r.cpuMs / e.window.rateSeconds
  let share := r.faultRate e.window + 1.0
  let r := { r with
    residentMb := mb
    residentRatio := mb * bytesPerMb / (max memory 1).toFloat
    costPerFault := time / share
    costUndefined := time == 0.0 && share == 0.0 }
  { r with finding := r.classify }

end Row

namespace Reading

def counts (e : Extent) (r : Reading) : List Row :=
  let rows := r.cpu.foldl (fun rows u => touch u.pid (.withCpu e u) rows) []
  let rows := r.faults.foldl (fun rows c => touch c.pid (.withFaults c) rows) rows
  r.handoffs.foldl (fun rows c => touch c.aggressor (.asAggressor c) (touch c.victim (.asVictim c) rows))
    rows

/-- The rows of a reading. `resident` holds the sizes that are known, and a memory of no size counts
as one byte. -/
def rows (e : Extent) (resident : List (Pid × UInt64)) (memory : UInt64) (r : Reading) : List Row :=
  (r.counts e).map (.complete e (fun pid => resident.lookup pid) memory)

def pids (r : Reading) : List Pid :=
  let all := r.cpu.map (·.pid) ++ r.faults.map (·.pid) ++
    r.handoffs.flatMap fun c => [c.victim, c.aggressor]
  ((all.filter (· ≠ 0)).mergeSort (· ≤ ·)).eraseDups

end Reading
end SchedLedger
