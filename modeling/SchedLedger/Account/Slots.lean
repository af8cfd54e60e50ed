/-! The scratch slots of the execution units: who was switched in last, and when. -/

namespace SchedLedger

abbrev Pid := UInt32
abbrev UnitId := UInt32

/-- The entity that runs on a unit and the time it was switched in, in nanoseconds. Entity 0 is
the idle task. -/
structure Slot where
  entity : Pid
  since : UInt64
deriving DecidableEq, Inhabited, Repr

structure Slots where
  cells : Array Slot
deriving DecidableEq

namespace Slots

def ofUnits (units : Nat) : Slots :=
  ⟨Array.replicate units ⟨0, 0⟩⟩

def size (s : Slots) : Nat :=
  s.cells.size

def get? (s : Slots) (unit : UnitId) : Option Slot :=
  s.cells[unit.toNat]?

def set (s : Slots) (unit : UnitId) (now : Slot) : Slots :=
  ⟨s.cells.setIfInBounds unit.toNat now⟩

/-- Put `now` into the slot of `unit` and return what it held before; a unit without a slot has
nothing to return and nothing changes. -/
def advance (s : Slots) (unit : UnitId) (now : Slot) : Option Slot × Slots :=
  (s.get? unit, s.set unit now)

@[simp] theorem size_ofUnits (units : Nat) : (ofUnits units).size = units := by
  simp [ofUnits, size]

@[simp] theorem size_set (s : Slots) (unit : UnitId) (now : Slot) : (s.set unit now).size = s.size := by
  simp [set, size]

end Slots
end SchedLedger
