import SchedLedger.Account.Ledger
import SchedLedger.Failure

/-! Accepted table sizes. -/

namespace SchedLedger

/-- A table holds at least one entry and at most `capacityLimit`. -/
def checkCapacity (table : String) (capacity : UInt64) : Except SettingsError Unit :=
  if capacity = 0 then .error (.emptyTable table)
  else if capacityLimit < capacity.toNat then .error (.largeTable table capacity)
  else .ok ()

def Capacities.check (caps : Capacities) : Except SettingsError Unit := do
  checkCapacity "pid_stats" caps.cpu
  checkCapacity "contention" caps.handoffs
  checkCapacity "faults" caps.faults

end SchedLedger
