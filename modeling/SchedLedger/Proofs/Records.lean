import SchedLedger.Proofs.Journal
import SchedLedger.Proofs.Ledger
import SchedLedger.Proofs.Resolver
import SchedLedger.Proofs.Table
import Mathlib.Data.List.Induction

/-! What an action does to the records of a ledger. It upserts at most one record, of the entity that it
charges or that faults, and only this upsert may ask the resolver; so a property of all records is kept if the
first record of an entity has it and every extension of a record keeps it. -/

namespace SchedLedger

/-- What a unit knew when the action happened. -/
def Action.context? : Action → Option Context
  | .switch ctx _ _ _ _ | .fault ctx => some ctx
  | .reset => none

namespace Ledger

/-- The entity that a switch charges: the one in the slot of its unit, unless that is the idle task. -/
def charged? (l : Ledger) : Action → Option Pid
  | .switch _ unit _ _ _ =>
    (l.slots.get? unit).bind fun held => if held.entity = 0 then none else some held.entity
  | .fault _ | .reset => none

/-- What becomes of the records and of the count of lookups: a reset clears them, a charge or a fault is one
upsert, and any other action leaves them alone. -/
inductive Booking (r : Resolver) (l l' : Ledger) : Action → Prop
  | reset (cpu : l'.cpu = l.cpu.clear.2) (faults : l'.faults = l.faults.clear.2)
      (lookups : l'.lookups = l.lookups) : Booking r l l' .reset
  | idle {a : Action} (ha : a.isReset = false) (hcharged : l.charged? a = none)
      (hfaulting : a.faulting? = none) (cpu : l'.cpu = l.cpu) (faults : l'.faults = l.faults)
      (lookups : l'.lookups = l.lookups) : Booking r l l' a
  | charge {ctx : Context} {unit : UnitId} {ts : UInt64} {prev next : Pid} {held : Slot}
      (hheld : l.slots.get? unit = some held) (hne : held.entity ≠ 0)
      (booked : (l'.cpu, l'.lookups) = (l.cpu.upsertWith held.entity (openCpu r ctx (ts - held.since))
        (extendCpu r ctx (ts - held.since)) l.lookups).2)
      (faults : l'.faults = l.faults) : Booking r l l' (.switch ctx unit ts prev next)
  | fault {ctx : Context} (hne : ctx.entity ≠ 0)
      (booked : (l'.faults, l'.lookups) =
        (l.faults.upsertWith ctx.entity (openFault r ctx) (extendFault r ctx) l.lookups).2)
      (cpu : l'.cpu = l.cpu) : Booking r l l' (.fault ctx)

theorem booking_apply (r : Resolver) (l : Ledger) (a : Action) : Booking r l (l.apply r a) a := by
  cases a with
  | reset => exact .reset rfl rfl rfl
  | fault ctx =>
    rw [apply, fault, countFault]
    by_cases hzero : ctx.entity = 0
    · rw [if_pos hzero]
      exact .idle rfl rfl (by simp [Action.faulting?, hzero]) rfl rfl rfl
    · rw [if_neg hzero]
      exact .fault hzero rfl rfl
  | switch ctx unit ts prev next =>
    -- the handoff is counted first, and touches neither the slots nor the records
    have hslots : (l.countHandoff prev next).slots = l.slots := slots_countHandoff l prev next
    rw [apply, switch, charge, hslots]
    cases hheld : l.slots.get? unit with
    | none =>
      exact .idle rfl (by simp [charged?, hheld]) rfl (cpu_countHandoff ..) (faults_countHandoff ..)
        (lookups_countHandoff ..)
    | some held =>
      by_cases hzero : held.entity = 0
      · simp only [hzero, if_true]
        exact .idle rfl (by simp [charged?, hheld, hzero]) rfl (cpu_countHandoff ..) (faults_countHandoff ..)
          (lookups_countHandoff ..)
      · simp only [hzero, if_false]
        refine .charge hheld hzero ?_ (faults_countHandoff ..)
        simp only [bookTime, cpu_countHandoff, lookups_countHandoff]

variable {r : Resolver} {l l' : Ledger} {a : Action}

namespace Booking

theorem forall_cpu {P : Pid → CpuRecord → Prop} (hb : Booking r l l' a)
    (h : ∀ pid v, l.cpu.get? pid = some v → P pid v)
    (hcharge : ∀ ctx unit ts prev next held, a = .switch ctx unit ts prev next →
      l.slots.get? unit = some held → held.entity ≠ 0 → ∀ ns n, P held.entity (openCpu r ctx ns n).1 ∧
        ∀ v, P held.entity v → P held.entity (extendCpu r ctx ns v n).1) :
    ∀ pid v, l'.cpu.get? pid = some v → P pid v := by
  cases hb with
  | reset cpu => rw [cpu]; simp
  | idle _ _ _ cpu => rwa [cpu]
  | fault _ _ cpu => rwa [cpu]
  | @charge ctx unit ts prev next held hheld hne booked =>
    obtain ⟨hopen, hextend⟩ := hcharge ctx unit ts prev next held rfl hheld hne (ts - held.since) l.lookups
    obtain ⟨hcpu, -⟩ := Prod.mk.inj booked
    rw [hcpu]
    exact Table.forall_get?_upsertWith h hopen hextend

theorem forall_faults {P : Pid → FaultRecord → Prop} (hb : Booking r l l' a)
    (h : ∀ pid v, l.faults.get? pid = some v → P pid v)
    (hfault : ∀ ctx, a = .fault ctx → ctx.entity ≠ 0 → ∀ n, P ctx.entity (openFault r ctx n).1 ∧
        ∀ v, P ctx.entity v → P ctx.entity (extendFault r ctx v n).1) :
    ∀ pid v, l'.faults.get? pid = some v → P pid v := by
  cases hb with
  | reset _ faults => rw [faults]; simp
  | idle _ _ _ _ faults => rwa [faults]
  | charge _ _ _ faults => rwa [faults]
  | @fault ctx hne booked =>
    obtain ⟨hopen, hextend⟩ := hfault ctx rfl hne l.lookups
    obtain ⟨hfaults, -⟩ := Prod.mk.inj booked
    rw [hfaults]
    exact Table.forall_get?_upsertWith h hopen hextend

end Booking

structure Grouped (l : Ledger) : Prop where
  cpu : ∀ pid v, l.cpu.get? pid = some v → v.group.isEmpty = false
  faults : ∀ pid v, l.faults.get? pid = some v → v.group.isEmpty = false

theorem Grouped.new (units : Nat) (caps : Capacities) : (Ledger.new units caps).Grouped :=
  ⟨fun _ _ h => (nomatch h), fun _ _ h => (nomatch h)⟩

theorem Grouped.apply (h : l.Grouped) (hr : r.NeverEmpty) (a : Action) : (l.apply r a).Grouped where
  cpu := (booking_apply r l a).forall_cpu h.cpu fun ctx _ _ _ _ _ _ _ _ _ n =>
    ⟨hr.isEmpty_settled n ctx .empty, fun v _ => hr.isEmpty_refresh ctx v.group n⟩
  faults := (booking_apply r l a).forall_faults h.faults fun ctx _ _ n =>
    ⟨hr.isEmpty_settled n ctx .empty, fun v _ => hr.isEmpty_refresh ctx v.group n⟩

theorem Grouped.run (h : l.Grouped) (hr : r.NeverEmpty) (actions : List Action) :
    (l.run r actions).Grouped := by
  induction actions generalizing l with
  | nil => exact h
  | cons a actions ih => exact ih (h.apply hr a)

theorem ne_zero_of_run (r : Resolver) (units : Nat) (caps : Capacities) (actions : List Action) :
    ∀ pid v, ((Ledger.new units caps).run r actions).cpu.get? pid = some v → pid ≠ 0 := by
  induction actions using List.reverseRecOn with
  | nil => exact fun _ _ h => nomatch h
  | append_singleton past a ih =>
    rw [run_concat]
    exact (booking_apply r _ a).forall_cpu ih fun _ _ _ _ _ _ _ _ hne _ _ => ⟨hne, fun _ h => h⟩

end Ledger
end SchedLedger
