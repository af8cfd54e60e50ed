import SchedLedger.Account.Slots
import SchedLedger.Span

/-! Recorded traces: declared tasks and the events of the execution units. -/

namespace SchedLedger

/-- A task that may appear in events. Its groups are named from the root to the leaf; `none` is a
task without membership, an empty name a group without a name. -/
structure Declaration where
  pid : Pid
  comm : String
  groups : Option (List String)
  residentBytes : Option UInt64
deriving DecidableEq, Repr

inductive Event
  | switch (unit : UnitId) (ts : UInt64) (prev next : Pid)
  | fault (unit : UnitId) (pid : Pid)
deriving DecidableEq, Repr

namespace Event

def unit : Event → UnitId
  | .switch unit _ _ _ => unit
  | .fault unit _ => unit

def time? : Event → Option UInt64
  | .switch _ ts _ _ => some ts
  | .fault _ _ => none

end Event

structure Trace where
  tasks : List Declaration
  events : List Event
deriving DecidableEq, Repr

namespace Trace

def maxUnit (t : Trace) : Option UnitId :=
  (t.events.map Event.unit).max?

def switchSpan (t : Trace) : Span :=
  let times := t.events.filterMap Event.time?
  match times.min?, times.max? with
  | some first, some last => ⟨(last - first).toNat⟩
  | _, _ => ⟨0⟩

end Trace
end SchedLedger
