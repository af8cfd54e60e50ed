import SchedLedger.Account.Handoff
import SchedLedger.Account.Resolver
import SchedLedger.Account.Table

/-! The ledger: the slots of all units and the three accounts that events are booked in. Booking
never fails; a full table refuses new keys and counts them. -/

namespace SchedLedger

/-- On-CPU time of an entity, with the name and group captured when it was first charged. -/
structure CpuRecord where
  ns : UInt64
  comm : Comm
  group : GroupPath
deriving DecidableEq

structure FaultRecord where
  faults : UInt64
  group : GroupPath
deriving DecidableEq

structure Capacities where
  cpu : UInt64
  handoffs : UInt64
  faults : UInt64
deriving DecidableEq, Repr

namespace Capacities

def reference : Capacities :=
  ⟨10240, 2048, 4096⟩

instance : Inhabited Capacities := ⟨reference⟩

end Capacities

/-- `lookups` counts how often the resolver was asked. -/
structure Ledger where
  slots : Slots
  cpu : Table Pid CpuRecord
  handoffs : Table Handoff UInt64
  faults : Table Pid FaultRecord
  lookups : Nat

namespace Ledger

def new (units : Nat) (caps : Capacities) : Ledger where
  slots := .ofUnits units
  cpu := .new "pid_stats" caps.cpu
  handoffs := .new "contention" caps.handoffs
  faults := .new "faults" caps.faults
  lookups := 0

def openCpu (r : Resolver) (ctx : Context) (ns : UInt64) (lookups : Nat) : CpuRecord × Nat :=
  let group := r.fill ctx .empty lookups
  (⟨ns, ctx.copyComm .empty, group.1⟩, group.2)

def extendCpu (r : Resolver) (ctx : Context) (ns : UInt64) (record : CpuRecord) (lookups : Nat) :
    CpuRecord × Nat :=
  let group := r.refresh ctx record.group lookups
  -- a name that failed to be copied is tried again
  let comm := if record.comm.isEmpty then ctx.copyComm record.comm else record.comm
  (⟨record.ns + ns, comm, group.1⟩, group.2)

def bookTime (r : Resolver) (l : Ledger) (ctx : Context) (pid : Pid) (ns : UInt64) : Ledger :=
  let booked := l.cpu.upsertWith pid (openCpu r ctx ns) (extendCpu r ctx ns) l.lookups
  { l with cpu := booked.2.1, lookups := booked.2.2 }

/-- A switch on `unit` at time `ts` to `next`. The slot always moves on. The entity that held it is
charged the time since it was switched in, modulo 2^64; the idle task is not charged. -/
def charge (r : Resolver) (l : Ledger) (ctx : Context) (unit : UnitId) (ts : UInt64) (next : Pid) :
    Ledger :=
  let moved := { l with slots := l.slots.set unit ⟨next, ts⟩ }
  -- a switch on a unit without a slot is lost
  match l.slots.get? unit with
  | none => l
  | some held =>
    if held.entity = 0 then moved else moved.bookTime r ctx held.entity (ts - held.since)

def countHandoff (l : Ledger) (victim aggressor : Pid) : Ledger :=
  match Handoff.ofPair? victim aggressor with
  | none => l
  | some pair => { l with handoffs := l.handoffs.upsert pair 1 (· + 1) }

def openFault (r : Resolver) (ctx : Context) (lookups : Nat) : FaultRecord × Nat :=
  let group := r.fill ctx .empty lookups
  (⟨1, group.1⟩, group.2)

def extendFault (r : Resolver) (ctx : Context) (record : FaultRecord) (lookups : Nat) :
    FaultRecord × Nat :=
  let group := r.refresh ctx record.group lookups
  (⟨record.faults + 1, group.1⟩, group.2)

def countFault (r : Resolver) (l : Ledger) (ctx : Context) (pid : Pid) : Ledger :=
  if pid = 0 then l
  else
    let booked := l.faults.upsertWith pid (openFault r ctx) (extendFault r ctx) l.lookups
    { l with faults := booked.2.1, lookups := booked.2.2 }

def switch (r : Resolver) (l : Ledger) (ctx : Context) (unit : UnitId) (ts : UInt64)
    (prev next : Pid) : Ledger :=
  (l.countHandoff prev next).charge r ctx unit ts next

def fault (r : Resolver) (l : Ledger) (ctx : Context) : Ledger :=
  l.countFault r ctx ctx.entity

/-- Close a window: all accounts are emptied, the slots stay. -/
def reset (l : Ledger) : Ledger :=
  { l with cpu := l.cpu.clear.2, handoffs := l.handoffs.clear.2, faults := l.faults.clear.2 }

def usage (l : Ledger) : List Usage :=
  [l.cpu.usage, l.handoffs.usage, l.faults.usage]

end Ledger

inductive Action
  | switch (ctx : Context) (unit : UnitId) (ts : UInt64) (prev next : Pid)
  | fault (ctx : Context)
  | reset

namespace Ledger

def apply (r : Resolver) (l : Ledger) : Action → Ledger
  | .switch ctx unit ts prev next => l.switch r ctx unit ts prev next
  | .fault ctx => l.fault r ctx
  | .reset => l.reset

def run (r : Resolver) (l : Ledger) (actions : List Action) : Ledger :=
  actions.foldl (Ledger.apply r) l

end Ledger
end SchedLedger
