import SchedLedger.Account.Ledger
import SchedLedger.Span

/-! The accounts as ranked lists. Entries without a value are left out; the others stand by falling
value, and by rising key where values are equal, so the order in which a table keeps its entries
does not show. -/

namespace SchedLedger

structure CpuUsage where
  pid : Pid
  comm : String
  group : String
  ns : UInt64
deriving DecidableEq, Repr

structure HandoffCount where
  victim : Pid
  victimComm : String
  aggressor : Pid
  aggressorComm : String
  count : UInt64
deriving DecidableEq, Repr

structure FaultCount where
  pid : Pid
  comm : String
  group : String
  faults : UInt64
  perSecond : Float
deriving DecidableEq, Repr

/-- Keep the first `limit` elements, or all of them when the limit is 0. -/
def keepFirst {α : Type} (limit : UInt64) (xs : List α) : List α :=
  if limit = 0 then xs else xs.take limit.toNat

def ranksBefore (v : UInt64) (k : Nat) (w : UInt64) (j : Nat) : Bool :=
  w < v || (v == w && k ≤ j)

def ranked {α : Type} (value : α → UInt64) (key : α → Nat) (entries : List α) : List α :=
  (entries.filter fun e => value e > 0).mergeSort
    fun a b => ranksBefore (value a) (key a) (value b) (key b)

namespace Ledger

def cpuRanking (l : Ledger) (limit : UInt64) : List CpuUsage :=
  keepFirst limit (ranked (·.2.ns) (·.1.toNat) l.cpu.entries) |>.map fun e =>
    ⟨e.1, e.2.comm.lossy, e.2.group.lossy, e.2.ns⟩

def handoffRanking (l : Ledger) (limit : UInt64) (name : Pid → String) : List HandoffCount :=
  keepFirst limit (ranked Prod.snd (·.1.raw.toNat) l.handoffs.entries) |>.map fun e =>
    ⟨e.1.victim, name e.1.victim, e.1.aggressor, name e.1.aggressor, e.2⟩

def faultRanking (l : Ledger) (limit : UInt64) (window : Span) (name : Pid → String) :
    List FaultCount :=
  keepFirst limit (ranked (·.2.faults) (·.1.toNat) l.faults.entries) |>.map fun e =>
    ⟨e.1, name e.1, e.2.group.lossy, e.2.faults, e.2.faults.toFloat / window.rateSeconds⟩

end Ledger
end SchedLedger
