import SchedLedger.Account.Ledger

/-! What each operation of a ledger does to its slots and to its three tables. Every operation works on
one of them and leaves the others alone, so the actions can be followed table by table. -/

namespace SchedLedger

namespace Slots

theorem get?_set (s : Slots) (unit u : UnitId) (now : Slot) :
    (s.set unit now).get? u = if unit = u then (s.get? u).map fun _ => now else s.get? u := by
  unfold get? set
  rw [Array.getElem?_setIfInBounds]
  by_cases h : unit = u
  · subst h
    simp only [if_true]
    split
    · next hlt => simp [Array.getElem?_eq_getElem hlt]
    · next hge => simp [Array.getElem?_eq_none (Nat.le_of_not_lt hge)]
  · have hne : unit.toNat ≠ u.toNat := fun he => h (UInt32.toNat_inj.1 he)
    simp [h, hne]

theorem get?_ofUnits (units : Nat) (u : UnitId) :
    (ofUnits units).get? u = if u.toNat < units then some ⟨0, 0⟩ else none := by
  simp [get?, ofUnits, Array.getElem?_replicate]

theorem set_of_get?_none {s : Slots} {unit : UnitId} (h : s.get? unit = none) (now : Slot) :
    s.set unit now = s := by
  unfold get? at h
  unfold set
  rw [Array.getElem?_eq_none_iff] at h
  rw [Array.setIfInBounds_eq_of_size_le h]

end Slots

namespace Ledger

variable (r : Resolver) (l : Ledger) (ctx : Context)

@[simp] theorem slots_bookTime (pid : Pid) (ns : UInt64) :
    (l.bookTime r ctx pid ns).slots = l.slots := rfl

@[simp] theorem handoffs_bookTime (pid : Pid) (ns : UInt64) :
    (l.bookTime r ctx pid ns).handoffs = l.handoffs := rfl

@[simp] theorem faults_bookTime (pid : Pid) (ns : UInt64) :
    (l.bookTime r ctx pid ns).faults = l.faults := rfl

/-- A switch moves the slot of its unit on, whether somebody is charged or not. -/
theorem slots_charge (unit : UnitId) (ts : UInt64) (next : Pid) :
    (l.charge r ctx unit ts next).slots = l.slots.set unit ⟨next, ts⟩ := by
  unfold charge
  split
  · next h => exact (Slots.set_of_get?_none h _).symm
  · split <;> simp

@[simp] theorem handoffs_charge (unit : UnitId) (ts : UInt64) (next : Pid) :
    (l.charge r ctx unit ts next).handoffs = l.handoffs := by
  unfold charge
  split
  · rfl
  · split <;> simp

@[simp] theorem faults_charge (unit : UnitId) (ts : UInt64) (next : Pid) :
    (l.charge r ctx unit ts next).faults = l.faults := by
  unfold charge
  split
  · rfl
  · split <;> simp

/-- A switch on an unknown unit, or after the idle task, charges nobody. -/
theorem cpu_charge_of_idle {unit : UnitId} (h : ∀ held, l.slots.get? unit = some held → held.entity = 0)
    (ts : UInt64) (next : Pid) : (l.charge r ctx unit ts next).cpu = l.cpu := by
  unfold charge
  split
  · rfl
  · next held hheld => rw [if_pos (h held hheld)]

theorem cpu_charge_of_held {unit : UnitId} {held : Slot} (hheld : l.slots.get? unit = some held)
    (hne : held.entity ≠ 0) (ts : UInt64) (next : Pid) :
    (l.charge r ctx unit ts next).cpu =
      (l.cpu.upsertWith held.entity (openCpu r ctx (ts - held.since)) (extendCpu r ctx (ts - held.since))
        l.lookups).2.1 := by
  simp only [charge, hheld, if_neg hne, bookTime]

@[simp] theorem slots_countHandoff (victim aggressor : Pid) :
    (l.countHandoff victim aggressor).slots = l.slots := by
  unfold countHandoff
  split <;> rfl

@[simp] theorem cpu_countHandoff (victim aggressor : Pid) :
    (l.countHandoff victim aggressor).cpu = l.cpu := by
  unfold countHandoff
  split <;> rfl

@[simp] theorem faults_countHandoff (victim aggressor : Pid) :
    (l.countHandoff victim aggressor).faults = l.faults := by
  unfold countHandoff
  split <;> rfl

@[simp] theorem lookups_countHandoff (victim aggressor : Pid) :
    (l.countHandoff victim aggressor).lookups = l.lookups := by
  unfold countHandoff
  split <;> rfl

@[simp] theorem slots_countFault (pid : Pid) : (l.countFault r ctx pid).slots = l.slots := by
  unfold countFault
  split <;> rfl

@[simp] theorem cpu_countFault (pid : Pid) : (l.countFault r ctx pid).cpu = l.cpu := by
  unfold countFault
  split <;> rfl

@[simp] theorem handoffs_countFault (pid : Pid) : (l.countFault r ctx pid).handoffs = l.handoffs := by
  unfold countFault
  split <;> rfl

theorem run_concat (actions : List Action) (a : Action) :
    l.run r (actions ++ [a]) = (l.run r actions).apply r a := by
  simp [run]

theorem run_append (first second : List Action) :
    l.run r (first ++ second) = (l.run r first).run r second := by
  simp [run]

theorem run_reverse_cons (a : Action) (past : List Action) :
    l.run r (a :: past).reverse = (l.run r past.reverse).apply r a := by
  rw [List.reverse_cons, run_concat]

end Ledger
end SchedLedger
