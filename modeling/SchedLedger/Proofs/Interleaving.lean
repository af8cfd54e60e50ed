import SchedLedger.Proofs.Room
import SchedLedger.Replay.Run

/-! Interleavings. The units raise their events independently, so a run sees any interleaving of their
streams. As long as no table has to refuse a key, the figures do not depend on which one it is: every
charge is made on one unit, and handoffs and faults are only counted. -/

namespace SchedLedger

/-- The elements of one key stand in a stable sort as they stood before. -/
theorem filter_mergeSort {α : Type} {le : α → α → Bool} {p : α → Bool} {xs : List α}
    (trans : ∀ a b c, le a b → le b c → le a c) (total : ∀ a b, le a b || le b a)
    (h : (xs.filter p).Pairwise (le · ·)) : (xs.mergeSort le).filter p = xs.filter p := by
  have hsub : (xs.filter p).Sublist (xs.mergeSort le) :=
    List.sublist_mergeSort trans total h List.filter_sublist
  have hsub' := hsub.filter p
  rw [List.filter_filter, List.filter_congr (fun x _ => Bool.and_self (p x))] at hsub'
  exact (hsub'.eq_of_length ((List.mergeSort_perm xs le).filter p).length_eq.symm).symm

theorem filter_mergeSort_of_alike {α : Type} {le : α → α → Bool} {p : α → Bool} (xs : List α)
    (trans : ∀ a b c, le a b → le b c → le a c) (total : ∀ a b, le a b || le b a)
    (alike : ∀ a b, p a → p b → le a b) : (xs.mergeSort le).filter p = xs.filter p := by
  apply filter_mergeSort trans total
  apply List.pairwise_of_forall_mem_list
  intro a ha b hb
  exact alike a b (List.mem_filter.1 ha).2 (List.mem_filter.1 hb).2

theorem perm_of_filter_eq {α β : Type} [DecidableEq α] [DecidableEq β] (f : α → β) {xs ys : List α}
    (h : ∀ b, xs.filter (f · = b) = ys.filter (f · = b)) : xs.Perm ys := by
  rw [List.perm_iff_count]
  intro a
  rw [← List.count_filter (p := (f · = f a)) (l := xs) (by simp), h (f a), List.count_filter (by simp)]

/-- The events on a unit, in the order of the list. -/
def onUnit (unit : UnitId) (events : List Event) : List Event :=
  events.filter (·.unit = unit)

/-- The events are those of all streams, one stream for each unit, each in its own order. -/
def Interleaves (streams : UnitId → List Event) (events : List Event) : Prop :=
  ∀ unit, onUnit unit events = streams unit

theorem Interleaves.self (events : List Event) : Interleaves (fun unit => onUnit unit events) events :=
  fun _ => rfl

theorem interleaves_of_mem {as bs : List Event} (h : ∀ e ∈ as ++ bs, onUnit e.unit bs = onUnit e.unit as) :
    Interleaves (fun unit => onUnit unit as) bs := by
  intro unit
  by_cases hsome : ∃ e ∈ as ++ bs, e.unit = unit
  · obtain ⟨e, he, rfl⟩ := hsome
    exact h e he
  · push Not at hsome
    rw [List.forall_mem_append] at hsome
    simp only [onUnit]
    rw [List.filter_eq_nil_iff.2 (by simpa using hsome.2), List.filter_eq_nil_iff.2 (by simpa using hsome.1)]

theorem Interleaves.perm {streams : UnitId → List Event} {as bs : List Event}
    (ha : Interleaves streams as) (hb : Interleaves streams bs) : as.Perm bs :=
  perm_of_filter_eq Event.unit fun unit => (ha unit).trans (hb unit).symm

theorem onUnit_byUnit (unit : UnitId) (events : List Event) :
    onUnit unit (Replay.byUnit events) = onUnit unit events := by
  apply filter_mergeSort_of_alike
  · intro a b c hab hbc
    simp only [decide_eq_true_eq] at *
    exact UInt32.le_trans hab hbc
  · intro a b
    simpa using UInt32.le_total a.unit b.unit
  · intro a b ha hb
    simp only [decide_eq_true_eq] at *
    rw [ha, hb]
    exact UInt32.le_refl unit

theorem Interleaves.byUnit {streams : UnitId → List Event} {events : List Event}
    (h : Interleaves streams events) : Interleaves streams (Replay.byUnit events) :=
  fun unit => (onUnit_byUnit unit events).trans (h unit)

/-- Runs that set every slot alike, and make the same handoffs and faults in some order. -/
structure SameBookings (xs ys : List Action) : Prop where
  switches : ∀ unit, switchesOn unit xs = switchesOn unit ys
  handoffs : (xs.filterMap Action.handoff?).Perm (ys.filterMap Action.handoff?)
  faults : (xs.filterMap Action.faulting?).Perm (ys.filterMap Action.faulting?)

theorem slot?_action_of_ne {unit : UnitId} {e : Event} (h : e.unit ≠ unit) (tasks : TaskTable) :
    (Replay.action tasks e).slot? unit = none := by
  cases e with
  | switch u ts prev next => exact if_neg h
  | fault u pid => rfl

theorem switchesOn_action (tasks : TaskTable) (unit : UnitId) (events : List Event) :
    switchesOn unit (events.map (Replay.action tasks)) =
      switchesOn unit ((onUnit unit events).map (Replay.action tasks)) := by
  induction events with
  | nil => rfl
  | cons e events ih =>
    rw [List.map_cons, switchesOn_cons, ih]
    simp only [onUnit, List.filter_cons]
    by_cases he : e.unit = unit
    · simp [he, switchesOn_cons]
    · simp [he, slot?_action_of_ne he]

theorem Interleaves.sameBookings {streams : UnitId → List Event} {as bs : List Event}
    (ha : Interleaves streams as) (hb : Interleaves streams bs) (tasks : TaskTable) :
    SameBookings (as.map (Replay.action tasks)) (bs.map (Replay.action tasks)) where
  switches unit := by
    rw [switchesOn_action, switchesOn_action tasks unit bs, ha unit, hb unit]
  handoffs := ((ha.perm hb).map _).filterMap _
  faults := ((ha.perm hb).map _).filterMap _

theorem sameBookings_byUnit (tasks : TaskTable) (events : List Event) :
    SameBookings ((Replay.byUnit events).map (Replay.action tasks)) (events.map (Replay.action tasks)) :=
  (Interleaves.self events).byUnit.sameBookings (Interleaves.self events) tasks

namespace SameBookings

variable {xs ys zs xs' ys' : List Action}

theorem refl (xs : List Action) : SameBookings xs xs :=
  ⟨fun _ => rfl, List.Perm.refl _, List.Perm.refl _⟩

theorem symm (h : SameBookings xs ys) : SameBookings ys xs :=
  ⟨fun unit => (h.switches unit).symm, h.handoffs.symm, h.faults.symm⟩

theorem trans (h : SameBookings xs ys) (h' : SameBookings ys zs) : SameBookings xs zs :=
  ⟨fun unit => (h.switches unit).trans (h'.switches unit), h.handoffs.trans h'.handoffs,
    h.faults.trans h'.faults⟩

theorem append (h : SameBookings xs ys) (h' : SameBookings xs' ys') :
    SameBookings (xs ++ xs') (ys ++ ys') where
  switches unit := by
    rw [switchesOn, switchesOn, List.filterMap_append, List.filterMap_append]
    exact congrArg₂ (· ++ ·) (h.switches unit) (h'.switches unit)
  handoffs := by
    rw [List.filterMap_append, List.filterMap_append]
    exact h.handoffs.append h'.handoffs
  faults := by
    rw [List.filterMap_append, List.filterMap_append]
    exact h.faults.append h'.faults

theorem slots (h : SameBookings xs ys) (r : Resolver) (units : Nat) (caps : Capacities) (unit : UnitId) :
    ((Ledger.new units caps).run r xs).slots.get? unit =
      ((Ledger.new units caps).run r ys).slots.get? unit := by
  rw [Account.slots_run, Account.slots_run, h.switches unit]

theorem time_perm (h : SameBookings xs ys) (units : Nat) :
    ((Journal.time units).entries [] xs.reverse).Perm ((Journal.time units).entries [] ys.reverse) := by
  apply perm_of_filter_eq Charge.unit
  intro unit
  rw [Journal.entries_time_filter, Journal.entries_time_filter, switchesOn_reverse, switchesOn_reverse,
    h.switches unit]

theorem handoffs_perm (h : SameBookings xs ys) :
    (Journal.handoffs.entries [] xs.reverse).Perm (Journal.handoffs.entries [] ys.reverse) := by
  rw [Journal.entries_eq_filterMap _ (fun _ _ => rfl), Journal.entries_eq_filterMap _ (fun _ _ => rfl),
    List.reverse_reverse, List.reverse_reverse]
  exact h.handoffs

theorem faults_perm (h : SameBookings xs ys) :
    (Journal.faults.entries [] xs.reverse).Perm (Journal.faults.entries [] ys.reverse) := by
  rw [Journal.entries_eq_filterMap _ (fun _ _ => rfl), Journal.entries_eq_filterMap _ (fun _ _ => rfl),
    List.reverse_reverse, List.reverse_reverse]
  exact h.faults

end SameBookings

structure Table.SameLoads {κ ν : Type} [DecidableEq κ] (load : ν → UInt64) (t t' : Table κ ν) : Prop where
  keys : t.keys.Perm t'.keys
  loads : ∀ k, (t.get? k).map load = (t'.get? k).map load

/-- The ledgers say the same of every unit, and of every key of their tables. -/
structure Ledger.SameFigures (l l' : Ledger) : Prop where
  slots : ∀ unit, l.slots.get? unit = l'.slots.get? unit
  cpu : l.cpu.SameLoads CpuRecord.ns l'.cpu
  handoffs : l.handoffs.SameLoads id l'.handoffs
  faults : l.faults.SameLoads FaultRecord.faults l'.faults

/-- With room for all keys, an account goes by what is entered and not by the order of it. -/
theorem Account.Kept.sameLoads {ε κ ν : Type} [DecidableEq κ] {A : Account ε κ ν} {units : Nat}
    (h : A.Kept units) (r : Resolver) (caps : Capacities) {xs ys : List Action}
    (hxs : ∀ a ∈ xs, a.isReset = false) (hys : ∀ a ∈ ys, a.isReset = false)
    (hperm : (A.journal.entries [] xs.reverse).Perm (A.journal.entries [] ys.reverse))
    (hroom : A.journal.distinct xs ≤ (A.capacity caps).toNat) :
    (A.table ((Ledger.new units caps).run r xs)).SameLoads A.load
      (A.table ((Ledger.new units caps).run r ys)) := by
  -- the keys and the amounts are the same but for their order, and with room for all keys nothing else counts
  have hkeys := hperm.map A.journal.key
  rw [Journal.distinct] at hroom
  have hroom' := hroom
  rw [(eraseDups_perm hkeys).length_eq] at hroom'
  rw [← A.journal.sinceReset_eq_entries (by simpa using hxs)] at hroom
  rw [← A.journal.sinceReset_eq_entries (by simpa using hys)] at hroom'
  rw [← A.journal.sinceReset_eq_entries (by simpa using hxs),
    ← A.journal.sinceReset_eq_entries (by simpa using hys)] at hkeys hperm
  rw [← Account.after_reverse, ← Account.after_reverse]
  refine ⟨?_, fun k => ?_⟩
  · rw [h.keys_of_room r caps _ hroom, h.keys_of_room r caps _ hroom']
    exact eraseDups_perm hkeys
  · rw [h.get?_of_room r caps _ hroom, h.get?_of_room r caps _ hroom']
    simp only [hkeys.mem_iff, A.journal.total_perm hperm]

theorem SameBookings.sameFigures {xs ys : List Action} (h : SameBookings xs ys) (r : Resolver)
    {units : Nat} {caps : Capacities} (hxs : ∀ a ∈ xs, a.isReset = false)
    (hys : ∀ a ∈ ys, a.isReset = false) (hroom : HasRoom units caps xs) :
    ((Ledger.new units caps).run r xs).SameFigures ((Ledger.new units caps).run r ys) where
  slots := h.slots r units caps
  cpu := (Account.time_kept units).sameLoads r caps hxs hys (h.time_perm units) hroom.cpu
  handoffs := (Account.handoffs_kept units).sameLoads r caps hxs hys h.handoffs_perm hroom.handoffs
  faults := (Account.faults_kept units).sameLoads r caps hxs hys h.faults_perm hroom.faults

theorem SameBookings.hasRoom {xs ys : List Action} (h : SameBookings xs ys) {units : Nat}
    {caps : Capacities} (hroom : HasRoom units caps xs) : HasRoom units caps ys where
  cpu := by
    rw [Journal.distinct, ← (eraseDups_perm ((h.time_perm units).map _)).length_eq]
    exact hroom.cpu
  handoffs := by
    rw [Journal.distinct, ← (eraseDups_perm (h.handoffs_perm.map _)).length_eq]
    exact hroom.handoffs
  faults := by
    rw [Journal.distinct, ← (eraseDups_perm (h.faults_perm.map _)).length_eq]
    exact hroom.faults

theorem isReset_action (tasks : TaskTable) (events : List Event) :
    ∀ a ∈ events.map (Replay.action tasks), a.isReset = false := by
  intro a ha
  obtain ⟨e, -, rfl⟩ := List.mem_map.1 ha
  cases e <;> rfl

/-- Two interleavings of the same streams, told to two fresh ledgers that have room for all keys, end in
the same figures, and neither refuses anything. Replaying unit by unit ends in those figures as well. -/
theorem sameFigures_of_interleaves (r : Resolver) (tasks : TaskTable) (units : Nat) (caps : Capacities)
    {streams : UnitId → List Event} {as bs : List Event} (ha : Interleaves streams as)
    (hb : Interleaves streams bs) (hroom : HasRoom units caps (as.map (Replay.action tasks))) :
    let fresh := Ledger.new units caps
    let told (events : List Event) := events.map (Replay.action tasks)
    (fresh.run r (told as)).SameFigures (fresh.run r (told bs)) ∧
    fresh.NeverRefuses r (told as) ∧ fresh.NeverRefuses r (told bs) ∧
    ∀ n, ((Replay.mk fresh tasks n).feed as).2.ledger.SameFigures (fresh.run .leafThenParent (told as)) := by
  intro fresh told
  have hab := ha.sameBookings hb tasks
  have hgrouped := sameBookings_byUnit tasks as
  have hroom' := hgrouped.symm.hasRoom hroom
  refine ⟨hab.sameFigures r (isReset_action tasks as) (isReset_action tasks bs) hroom,
    hroom.neverRefuses r, (hab.hasRoom hroom).neverRefuses r, fun n => ?_⟩
  exact hgrouped.sameFigures .leafThenParent (isReset_action tasks _) (isReset_action tasks as) hroom'

/-- Two units that run the same task, in tables with one place each. -/
theorem sameFigures_of_two_units :
    let as : List Event :=
      [.switch 0 100 0 5, .switch 1 110 0 5, .switch 0 150 5 7, .fault 1 5, .switch 1 180 5 7]
    let bs : List Event :=
      [.switch 1 110 0 5, .fault 1 5, .switch 1 180 5 7, .switch 0 100 0 5, .switch 0 150 5 7]
    let told (events : List Event) := events.map (Replay.action .empty)
    Interleaves (fun unit => onUnit unit as) as ∧ Interleaves (fun unit => onUnit unit as) bs ∧
    HasRoom 2 ⟨1, 1, 1⟩ (told as) ∧
    ((Ledger.new 2 ⟨1, 1, 1⟩).run .leafThenParent (told as)).SameFigures
      ((Ledger.new 2 ⟨1, 1, 1⟩).run .leafThenParent (told bs)) := by
  intro as bs told
  have ha := Interleaves.self as
  have hb : Interleaves (fun unit => onUnit unit as) bs := interleaves_of_mem (by decide)
  have hroom : HasRoom 2 ⟨1, 1, 1⟩ (told as) := ⟨by decide, by decide, by decide⟩
  exact ⟨ha, hb, hroom,
    (sameFigures_of_interleaves .leafThenParent .empty 2 ⟨1, 1, 1⟩ ha hb hroom).1⟩

end SchedLedger
