import SchedLedger.Proofs.Acceptance
import SchedLedger.Proofs.Interleaving

/-! The slots after a replay. Whoever accepts a trace can replay it, and has a slot for every unit in it; and
since a slot is moved on by the switches of its own unit only, it ends with the last of them in the order of the
trace, in whatever order the units are replayed. -/

namespace SchedLedger

def Event.slot? : Event → Option Slot
  | .switch _ ts _ next => some ⟨next, ts⟩
  | .fault .. => none

/-- What the last switch on a unit leaves in its slot. -/
def lastSwitch (unit : UnitId) (events : List Event) : Option Slot :=
  ((onUnit unit events).filterMap Event.slot?).getLast?

theorem slot?_action (tasks : TaskTable) {unit : UnitId} {e : Event} (h : e.unit = unit) :
    (Replay.action tasks e).slot? unit = e.slot? := by
  cases e with
  | switch u ts prev next => exact if_pos h
  | fault u pid => rfl

theorem switchesOn_told (tasks : TaskTable) (unit : UnitId) (events : List Event) :
    switchesOn unit (events.map (Replay.action tasks)) = (onUnit unit events).filterMap Event.slot? := by
  rw [switchesOn_action, switchesOn, List.filterMap_map]
  apply List.filterMap_congr
  intro e he
  exact slot?_action tasks (by simpa using (List.mem_filter.1 he).2)

namespace Replay

variable {trace : Trace} (tasks : TaskTable) (caps : Capacities)

theorem unitsFor_cases (h : ∀ e ∈ trace.events, e.unit.toNat < unitLimit) :
    trace.events = [] ∧ (unitsFor trace none).toNat = 1 ∨
      ∃ e ∈ trace.events, (unitsFor trace none).toNat = e.unit.toNat + 1 ∧
        ∀ e' ∈ trace.events, e'.unit ≤ e.unit := by
  have hunits := toNat_unitsFor h
  cases hmax : trace.maxUnit with
  | none =>
    rw [hmax] at hunits
    rw [Trace.maxUnit, List.max?_eq_none_iff, List.map_eq_nil_iff] at hmax
    exact .inl ⟨hmax, hunits⟩
  | some unit =>
    rw [hmax] at hunits
    obtain ⟨e, he, rfl⟩ := List.mem_map.1 (List.max?_mem hmax)
    refine .inr ⟨e, he, hunits, fun e' he' => ?_⟩
    exact (List.max?_eq_some_iff.1 hmax).2 e'.unit (List.mem_map_of_mem he')

theorem exists_slot (h : ∀ e ∈ trace.events, e.unit.toNat < unitLimit) (actions : List Action) :
    ∀ e ∈ trace.events, ∃ held,
      ((Ledger.new (unitsFor trace none).toNat caps).run .leafThenParent actions).slots.get? e.unit =
        some held := by
  intro e he
  rw [Account.slots_run, if_pos (unit_lt_unitsFor h e he)]
  exact ⟨_, rfl⟩

theorem slots_of_interleaves {streams : UnitId → List Event} {events told : List Event}
    (h : Interleaves streams events) (htold : Interleaves streams told) (units : Nat) (unit : UnitId) :
    ((Ledger.new units caps).run .leafThenParent (told.map (action tasks))).slots.get? unit =
      if unit.toNat < units then some ((lastSwitch unit events).getD ⟨0, 0⟩) else none := by
  rw [Account.slots_run, switchesOn_told, lastSwitch, htold unit, h unit]

/-- An accepted trace can be replayed with any accepted table sizes, on one unit more than its greatest, and all of
its events are. No switch misses its slot, and every slot ends with the last switch of its unit in the order of the
trace, or as it was if there is none; and so it is however the units interleave. -/
theorem slots_of_replay {content : Bytes} {trace : Trace} (h : Trace.read content = .ok trace)
    {caps : Capacities} (hcaps : caps.check = .ok ()) (window : Option Span) :
    ∃ o, trace.replay none window caps = .ok o ∧
      (trace.events = [] ∧ o.replay.units.toNat = 1 ∨
        ∃ e ∈ trace.events, o.replay.units.toNat = e.unit.toNat + 1 ∧ ∀ e' ∈ trace.events, e'.unit ≤ e.unit) ∧
      (1 ≤ o.replay.units.toNat ∧ o.replay.units.toNat ≤ 4096) ∧
      o.events = trace.events.length ∧
      (∀ unit, o.replay.ledger.slots.get? unit =
        if unit.toNat < o.replay.units.toNat then some ((lastSwitch unit trace.events).getD ⟨0, 0⟩) else none) ∧
      ∀ told, Interleaves (fun unit => onUnit unit trace.events) told →
        let fresh := Ledger.new o.replay.units.toNat caps
        let actions := told.map (action o.replay.tasks)
        (∀ done, done <+: actions → ∀ e ∈ trace.events, ∃ held,
          (fresh.run .leafThenParent done).slots.get? e.unit = some held) ∧
        ∀ unit, (fresh.run .leafThenParent actions).slots.get? unit =
          o.replay.ledger.slots.get? unit := by
  have hunit := Trace.unit_lt h
  have hself := Interleaves.self trace.events
  rw [Trace.replay, forTrace_eq hunit hcaps]
  have hslots := slots_of_interleaves (.ofDeclarations trace.tasks) caps hself hself.byUnit
    (unitsFor trace none).toNat
  refine ⟨_, rfl, unitsFor_cases hunit, unitsFor_range hunit, rfl, hslots, fun told htold => ?_⟩
  refine ⟨fun done _ => exists_slot caps hunit done, fun unit => ?_⟩
  exact (slots_of_interleaves _ caps hself htold _ unit).trans (hslots unit).symm

/-- The last switch of unit 0 is the earliest of all, and unit 2 has none. -/
theorem slots_of_replay_of_three_units :
    let content := Text.Utf8.encode
      "[\"switch\",1,110,0,5]\n[\"switch\",0,150,0,7]\n[\"fault\",2,5]\n[\"switch\",0,100,7,3]\n"
    let trace : Trace := ⟨[], [.switch 1 110 0 5, .switch 0 150 0 7, .fault 2 5, .switch 0 100 7 3]⟩
    Trace.read content = .ok trace ∧ Capacities.check ⟨1, 1, 1⟩ = .ok () ∧
      ∃ o, trace.replay none none ⟨1, 1, 1⟩ = .ok o ∧ o.replay.units.toNat = 3 ∧ o.events = 4 ∧
        o.replay.ledger.slots.get? 0 = some ⟨3, 100⟩ ∧ o.replay.ledger.slots.get? 1 = some ⟨5, 110⟩ ∧
        o.replay.ledger.slots.get? 2 = some ⟨0, 0⟩ ∧ o.replay.ledger.slots.get? 3 = none := by
  intro content trace
  have hread : Trace.read content = .ok trace := Trace.read_eq_ok (by decide +kernel)
  have hcaps : Capacities.check ⟨1, 1, 1⟩ = .ok () := rfl
  obtain ⟨o, ho, hcases, -, hevents, hslots, -⟩ := slots_of_replay hread hcaps none
  have hunits : o.replay.units.toNat = 3 := by
    rcases hcases with ⟨hnil, -⟩ | ⟨e, he, hunits, hgreatest⟩
    · cases hnil
    · have hle : ∀ e ∈ trace.events, e.unit ≤ 2 := by decide
      rw [hunits, UInt32.le_antisymm (hle e he) (hgreatest (.fault 2 5) (by decide))]
      rfl
  refine ⟨hread, hcaps, o, ho, hunits, hevents, ?_, ?_, ?_, ?_⟩ <;> rw [hslots, hunits] <;> rfl

end Replay
end SchedLedger
