import SchedLedger.Decimal.Fixed
import SchedLedger.Render.Columns
import SchedLedger.Report.Build

/-! Reports for a reader: a heading, the focus, and one table for each section. -/

namespace SchedLedger

/-- A whole number of units and the rest of one, counted in parts of which `10 ^ places` make up one
unit. Zeros at the end of the fraction are left out. -/
def fractionText (whole rest places : Nat) : String :=
  let ds := Decimal.digits rest
  let padded := List.replicate (places - ds.length) '0' ++ ds
  let fraction := (padded.reverse.dropWhile (· == '0')).reverse
  toString whole ++ if rest = 0 then "" else "." ++ String.ofList fraction

def Span.text (s : Span) : String :=
  let n := s.nanos
  if 1000000000 ≤ n then fractionText (n / 1000000000) (n % 1000000000) 9 ++ "s"
  else if 1000000 ≤ n then fractionText (n / 1000000) (n % 1000000) 6 ++ "ms"
  else if 1000 ≤ n then fractionText (n / 1000) (n % 1000) 3 ++ "µs"
  else toString n ++ "ns"

namespace Report

def version : String := "0.1.0"

def banner : String :=
  s!"hotspot v{version}  |  CPU time, contention and page-fault hotspots\n"

def section_ (title remark : String) (t : Columns) : String :=
  title ++ "\n" ++ if t.rows.isEmpty then remark ++ "\n" else String.ofList t.render

def windowText (r : Report) : String :=
  (⟨r.window.toNat⟩ : Span).text

def heading (r : Report) : String :=
  s!"Window {r.index}: {r.windowText} from +" ++ (⟨r.start.toNat⟩ : Span).text ++ s!" | Units: {r.units}\n\n"

def focusText (r : Report) : String :=
  match r.focus with
  | some f =>
    s!"[!] Focus: {f.comm} (pid {f.pid})\n   Reason: " ++ f.finding.label ++ s!" - {f.summary}\n\n"
  | none =>
    if r.rows.isEmpty then
      s!"[!] No processes matched current filters (topk={r.topK}, hide-kernel={r.hideKernel})\n\n"
    else ""

def cpuColumns (r : Report) : Columns where
  header := ["PID", "COMM", "CGROUP", "CPU(ms)", "CPU(%)", "Diag"]
  rows := r.cpu.map fun row =>
    [toString row.pid, row.comm, row.group, Decimal.fixed 2 row.cpuMs, Decimal.fixed 2 row.cpuPercent,
     row.finding.label]

def handoffColumns (r : Report) : Columns where
  header := ["PID", "COMM", "PREEMPTED BY", "TIMES"]
  rows := r.handoffs.map fun c =>
    [toString c.victim, c.victimComm, s!"{c.aggressor} ({c.aggressorComm})", toString c.count]

def costColumns (r : Report) : Columns where
  header := ["PID", "COMM", "CGROUP", "CPU(ms)", "RSS(MB)", "Faults", "Faults/sec",
    "CPU Cost per Fault (ms)", "Diagnosis"]
  rows := r.cpuCost.map fun row =>
    [toString row.pid, row.comm, row.group, Decimal.fixed 2 row.cpuMs, Decimal.fixed 1 row.residentMb,
     toString row.faults, Decimal.fixed 1 row.faultsPerSecond, Decimal.fixed 2 row.costPerFault,
     row.finding.label]

def usageColumns (r : Report) : Columns where
  header := ["TABLE", "ENTRIES", "CAPACITY", "DROPPED"]
  rows := r.usage.map fun u => [u.table, toString u.entries, toString u.capacity, toString u.dropped]

/-- The report as text. The last section shows its header even without rows. -/
def sheet (r : Report) : String :=
  banner ++ r.heading ++ r.focusText ++
    section_ s!"[Top {r.topK} CPU, window {r.windowText}]" "No CPU samples for this window" r.cpuColumns ++
    "\n" ++
    section_ s!"[CPU Contention - last {r.windowText}]" "No preemptions recorded in this window"
      r.handoffColumns ++ "\n" ++
    section_ "[CPU Cost per Fault - CPU vs Page Faults]" "No page faults recorded in this window"
      r.costColumns ++
    "\n[Table saturation]\n" ++ String.ofList r.usageColumns.render

end Report
end SchedLedger
