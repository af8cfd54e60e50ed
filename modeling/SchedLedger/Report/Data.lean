import SchedLedger.Json.Value
import SchedLedger.Report.Build

/-! Reports as data: names and order of everything that a reader of the data formats sees. -/

namespace SchedLedger

open Json (Value)

def Json.word (n : UInt64) : Value :=
  .integer n.toNat

def Json.pid (p : Pid) : Value :=
  .integer p.toNat

def Json.optional : Option String → Value
  | some s => .text s
  | none => .null

def Row.toData (r : Row) : Value :=
  .object
    [("pid", Json.pid r.pid), ("comm", .text r.comm), ("cgroup", .text r.group),
     ("cpu_ns", Json.word r.cpuNs), ("cpu_ms", .real r.cpuMs), ("cpu_percent", .real r.cpuPercent),
     ("rss_mb", .real r.residentMb), ("rss_ratio", .real r.residentRatio),
     ("faults", Json.word r.faults), ("faults_per_sec", .real r.faultsPerSecond),
     ("cpu_cost_per_fault", .real r.costPerFault), ("preempted", Json.word r.preempted),
     ("preempts_others", Json.word r.preemptsOthers), ("diagnosis", .text r.finding.name)]

def HandoffCount.toData (c : HandoffCount) : Value :=
  .object
    [("victim_pid", Json.pid c.victim), ("victim_comm", .text c.victimComm),
     ("aggressor_pid", Json.pid c.aggressor), ("aggressor_comm", .text c.aggressorComm),
     ("count", Json.word c.count)]

def Usage.toData (u : Usage) : Value :=
  .object
    [("table", .text u.table), ("entries", Json.word u.entries), ("capacity", Json.word u.capacity),
     ("dropped", Json.word u.dropped)]

def Focus.toData (f : Focus) : Value :=
  .object
    [("pid", Json.pid f.pid), ("comm", .text f.comm), ("diagnosis", .text f.finding.name),
     ("summary", .text f.summary)]

def Report.toData (r : Report) : Value :=
  .object
    [("window_index", Json.word r.index), ("window_start_ns", Json.word r.start),
     ("window_ns", Json.word r.window), ("units", Json.word r.units), ("top_k", Json.word r.topK),
     ("hide_kernel", .bool r.hideKernel), ("cgroup_filter", Json.optional r.groupFilter),
     ("focus", match r.focus with
       | some f => f.toData
       | none => .null),
     ("rows", .list (r.rows.map Row.toData)), ("cpu", .list (r.cpu.map Row.toData)),
     ("contention", .list (r.handoffs.map HandoffCount.toData)),
     ("cpu_cost", .list (r.cpuCost.map Row.toData)), ("saturation", .list (r.usage.map Usage.toData))]

end SchedLedger
