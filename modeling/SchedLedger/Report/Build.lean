import SchedLedger.Failure
import SchedLedger.Report.Filter
import SchedLedger.Report.Rank
import SchedLedger.Word

/-! Reports: one window of the tables, merged, filtered, ranked and explained. -/

namespace SchedLedger

structure Focus where
  pid : Pid
  comm : String
  finding : Finding
  summary : String
deriving DecidableEq, Repr

def Row.focus (r : Row) : Focus :=
  ⟨r.pid, r.comm, r.finding, r.summary⟩

structure ReportSettings where
  topK : UInt64
  hideKernel : Bool
  groupFilter : Option String
  totalMemory : Option UInt64
deriving DecidableEq, Repr

namespace ReportSettings

def standard : ReportSettings :=
  ⟨5, true, none, none⟩

instance : Inhabited ReportSettings := ⟨standard⟩

/-- Every section shows at least one row. -/
def limit (s : ReportSettings) : UInt64 :=
  max s.topK 1

def filter (s : ReportSettings) : Filter :=
  .new s.hideKernel s.groupFilter

end ReportSettings

/-- `index` and `start` place the window among the intervals of a replay. -/
structure Report where
  index : UInt64
  start : UInt64
  window : UInt64
  units : UInt64
  topK : UInt64
  hideKernel : Bool
  groupFilter : Option String
  focus : Option Focus
  rows : List Row
  cpu : List Row
  handoffs : List HandoffCount
  cpuCost : List Row
  usage : List Usage

def limitOf (factor topK : UInt64) : Except Failure UInt64 :=
  match product? (max topK 1) factor with
  | some limit => .ok limit
  | none => .error .overflow

def Reading.upTo (l : Ledger) (entities handoffs : UInt64) (window : Span) (name : Pid → String) : Reading where
  cpu := l.cpuRanking entities
  handoffs := l.handoffRanking handoffs name
  faults := l.faultRanking entities window name
  usage := l.usage

/-- Read the tables of a ledger, with more entries than a section shows, so that enough of them are
left after filtering. -/
def Reading.ofLedger (l : Ledger) (topK : UInt64) (window : Span) (name : Pid → String) :
    Except Failure Reading := do
  let entities ← limitOf 3 topK
  let handoffs ← limitOf 4 topK
  return .upTo l entities handoffs window name

namespace Report

/-- The report on a reading, as the only window. Handoffs are judged by all rows, the other sections
take the rows that pass. -/
def upTo (costs : UInt64) (reading : Reading) (e : Extent) (resident : List (Pid × UInt64)) (memory : UInt64)
    (s : ReportSettings) : Report :=
  let all := reading.rows e resident memory
  let rows := all.filter s.filter.passes
  { index := 0
    start := 0
    window := e.window.toWord
    units := e.units
    topK := s.limit
    hideKernel := s.filter.hideKernel
    groupFilter := s.filter.group
    focus := (focusRow rows).map Row.focus
    rows := rows
    cpu := cpuSection s.limit rows
    handoffs := shownHandoffs s.filter all s.limit reading.handoffs
    cpuCost := costSection costs rows
    usage := reading.usage }

def build (reading : Reading) (e : Extent) (resident : List (Pid × UInt64)) (memory : UInt64)
    (s : ReportSettings) : Except Failure Report := do
  let costs ← limitOf 2 s.topK
  return upTo costs reading e resident memory s

def dropped (r : Report) : UInt64 :=
  r.usage.foldl (· + ·.dropped) 0

end Report
end SchedLedger
