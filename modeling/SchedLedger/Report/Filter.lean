import SchedLedger.Report.Merge
import SchedLedger.Text.Blank
import SchedLedger.Text.Case

/-! Which rows and handoffs a report shows. -/

namespace SchedLedger

/-- A filter text in its normal form: trimmed and in lower case; a blank one is none. -/
def normalText (filter : Option String) : Option String :=
  (filter.map fun s => Text.lower (Text.trim s)).filter (· ≠ "")

structure Filter where
  hideKernel : Bool
  group : Option String
deriving DecidableEq, Repr

namespace Filter

def new (hideKernel : Bool) (group : Option String) : Filter :=
  ⟨hideKernel, normalText group⟩

def standard : Filter :=
  new true none

def kernelNames : List String :=
  ["kworker", "ksoftirqd", "kthreadd", "migration", "watchdog", "rcu", "irq/"]

/-- The idle task and every process named like a kernel thread, in any case. -/
def isKernel (r : Row) : Bool :=
  r.pid == 0 || kernelNames.any fun name => name.toList.isPrefixOf (Text.lowerChars r.comm.toList)

def matchesGroup (f : Filter) (group : String) : Bool :=
  match f.group with
  | some part => Text.occursIn part.toList (Text.lowerChars group.toList)
  | none => true

def hides (f : Filter) (r : Row) : Bool :=
  f.hideKernel && isKernel r

def passes (f : Filter) (r : Row) : Bool :=
  !f.hides r && f.matchesGroup r.group

/-- A handoff shows if both its ends have rows, neither end is hidden, and the group of one end
matches. -/
def passesHandoff (f : Filter) (row : Pid → Option Row) (c : HandoffCount) : Bool :=
  match row c.victim, row c.aggressor with
  | some v, some a => !(f.hides v || f.hides a) && (f.matchesGroup v.group || f.matchesGroup a.group)
  | _, _ => false

end Filter

/-- The row of a process; of several the last one. -/
def rowOf? (rows : List Row) (pid : Pid) : Option Row :=
  rows.reverse.find? (·.pid = pid)

def shownHandoffs (f : Filter) (rows : List Row) (limit : UInt64) (cs : List HandoffCount) :
    List HandoffCount :=
  keepFirst limit (cs.filter (f.passesHandoff (rowOf? rows)))

end SchedLedger
