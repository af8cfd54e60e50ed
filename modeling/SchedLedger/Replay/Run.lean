import SchedLedger.Replay.Tasks
import SchedLedger.Replay.Windows
import SchedLedger.Settings.Limits

/-! Replaying the events of a trace into a ledger. The units are replayed one after another, each in
the order of the trace. -/

namespace SchedLedger

structure Replay where
  ledger : Ledger
  tasks : TaskTable
  units : UInt64

namespace Replay

def start (tasks : List Declaration) (units : UInt64) (caps : Capacities) :
    Except SettingsError Replay := do
  if units = 0 then .error .noUnits
  if unitLimit < units.toNat then .error (.tooManyUnits units)
  caps.check
  return ⟨.new units.toNat caps, .ofDeclarations tasks, units⟩

/-- As many units as given, or else one more than the greatest unit of the trace. -/
def unitsFor (trace : Trace) (units : Option UInt64) : UInt64 :=
  units.getD (match trace.maxUnit with
    | some unit => unit.toUInt64 + 1
    | none => 1)

def forTrace (trace : Trace) (units : Option UInt64) (caps : Capacities) :
    Except SettingsError Replay :=
  start trace.tasks (unitsFor trace units) caps

/-- An event as the ledger is told of it: a switch concerns the outgoing task, a fault the faulting
one. -/
def action (tasks : TaskTable) : Event → Action
  | .switch unit ts prev next => .switch (tasks.context prev) unit ts prev next
  | .fault _ pid => .fault (tasks.context pid)

def byUnit (events : List Event) : List Event :=
  events.mergeSort (·.unit ≤ ·.unit)

def tell (r : Replay) (events : List Event) : Replay :=
  { r with ledger := r.ledger.run .leafThenParent (events.map (action r.tasks)) }

def feed (r : Replay) (events : List Event) : Nat × Replay :=
  (events.length, r.tell (byUnit events))

def reset (r : Replay) : Replay :=
  { r with ledger := r.ledger.reset }

end Replay

structure Outcome where
  replay : Replay
  window : Span
  events : Nat

/-- Replay a whole trace as one window, as long as the switches span unless a length is given. -/
def Trace.replay (trace : Trace) (units : Option UInt64) (window : Option Span) (caps : Capacities) :
    Except SettingsError Outcome := do
  let fed := (← Replay.forTrace trace units caps).feed trace.events
  return ⟨fed.2, window.getD trace.switchSpan, fed.1⟩

end SchedLedger
