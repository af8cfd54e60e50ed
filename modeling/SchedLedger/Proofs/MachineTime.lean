import SchedLedger.Proofs.Acceptance
import SchedLedger.Proofs.Totals
import SchedLedger.Proofs.Windows
import SchedLedger.Report.Merge
import Mathlib.Algebra.BigOperators.Ring.Finset
import Mathlib.Algebra.Order.Field.Rat

/-! Machine time. The charges of one unit follow one another between its first switch and its last, so as long
as its clock does not run backwards they fit in the time that the switches of the trace span. A machine has
that time once for each unit, and its processes together are never charged more. -/

namespace SchedLedger

def Ledger.charged (l : Ledger) : Nat :=
  (l.cpu.entries.map fun e => e.2.ns.toNat).sum

/-- The time of all units together, in nanoseconds. -/
def Extent.machineTime (e : Extent) : Nat :=
  e.units.toNat * e.window.nanos

/-- The part of the machine's time that each entry of the CPU table has had. -/
def Ledger.shares (l : Ledger) (e : Extent) : List ℚ :=
  l.cpu.entries.map fun entry => entry.2.ns.toNat / e.machineTime

theorem Ledger.sum_shares_le {l : Ledger} {e : Extent} (h : l.charged ≤ e.machineTime) :
    (l.shares e).sum ≤ 1 := by
  have hsum : (l.shares e).sum = (l.charged : ℚ) / e.machineTime := by
    rw [shares, charged, Nat.cast_list_sum, List.map_map, div_eq_mul_inv, ← List.sum_map_mul_right]
    rfl
  rw [hsum]
  exact div_le_one_of_le₀ (by exact_mod_cast h) (Nat.cast_nonneg _)

/-- No switch is later than any other by more than the span. -/
def WithinSpan (span : Nat) (switches : List Slot) : Prop :=
  ∀ s ∈ switches, ∀ s' ∈ switches, s'.since.toNat ≤ s.since.toNat + span

structure Punctual (span : Nat) (actions : List Action) : Prop where
  ascend : ∀ unit, ((switchesOn unit actions).map Slot.since).Pairwise (· ≤ ·)
  within : ∀ unit, WithinSpan span (switchesOn unit actions)

namespace Charge

variable {held now : Slot} {switches : List Slot} {limit span : Nat} (units : Nat) (unit : UnitId)

theorem along_cons_cons :
    along unit (held :: now :: switches) = (between? unit held now).toList ++ along unit (now :: switches) := by
  cases h : between? unit held now <;> simp [along, h]

theorem amounts_between?_le (h : held.since ≤ now.since) :
    (Journal.time units).amounts (between? unit held now).toList + held.since.toNat ≤ now.since.toNat := by
  unfold between?
  split
  · simpa [Journal.amounts] using UInt64.le_iff_toNat_le.1 h
  · have hle := UInt64.le_iff_toNat_le.1 h
    simp only [Option.toList_some, Journal.amounts, List.map_singleton, List.sum_singleton, Journal.time,
      UInt64.toNat_sub_of_le _ _ h]
    omega

theorem amounts_along_cons_le (hasc : ((held :: switches).map Slot.since).Pairwise (· ≤ ·))
    (hlimit : ∀ s ∈ held :: switches, s.since.toNat ≤ limit) :
    (Journal.time units).amounts (along unit (held :: switches)) + held.since.toNat ≤ limit := by
  induction switches generalizing held with
  | nil => simpa [along, Journal.amounts] using hlimit held
  | cons now switches ih =>
    rw [List.map_cons, List.pairwise_cons] at hasc
    have hstep := amounts_between?_le units unit (hasc.1 now.since List.mem_cons_self)
    have hrest := ih hasc.2 fun s hs => hlimit s (List.mem_cons_of_mem _ hs)
    rw [along_cons_cons, Journal.amounts_append]
    omega

theorem amounts_along_le (hasc : (switches.map Slot.since).Pairwise (· ≤ ·))
    (hspan : WithinSpan span switches) : (Journal.time units).amounts (along unit switches) ≤ span := by
  cases switches with
  | nil => exact Nat.zero_le _
  | cons held switches =>
    have h := amounts_along_cons_le units unit hasc (hspan held List.mem_cons_self)
    omega

end Charge

namespace Journal

variable {units span : Nat} {actions : List Action}

theorem unit_lt_of_mem_entries_time {history : List Action} {c : Charge}
    (h : c ∈ (time units).entries [] history) : c.unit.toNat < units := by
  have hmem : c ∈ ((time units).entries [] history).filter (·.unit = c.unit) :=
    List.mem_filter.2 ⟨h, by simp⟩
  rw [entries_time_filter] at hmem
  split at hmem
  · next hlt => exact hlt
  · cases hmem

theorem amounts_of_unit_le (h : Punctual span actions) (unit : UnitId) :
    (time units).amounts (((time units).entries [] actions.reverse).filter (·.unit = unit)) ≤ span := by
  rw [entries_time_filter]
  split
  · rw [switchesOn_reverse, List.reverse_reverse]
    exact Charge.amounts_along_le units unit (h.ascend unit) (h.within unit)
  · exact Nat.zero_le _

theorem amounts_of_place_le (h : Punctual span actions) (place : Nat) :
    (time units).amounts (((time units).entries [] actions.reverse).filter (·.unit.toNat = place)) ≤ span := by
  cases hcharges : ((time units).entries [] actions.reverse).filter (·.unit.toNat = place) with
  | nil => exact Nat.zero_le _
  | cons c cs =>
    have hc : c ∈ ((time units).entries [] actions.reverse).filter (·.unit.toNat = place) :=
      hcharges ▸ List.mem_cons_self
    have hplace : c.unit.toNat = place := by simpa using (List.mem_filter.1 hc).2
    have hsame : ((time units).entries [] actions.reverse).filter (·.unit.toNat = place) =
        ((time units).entries [] actions.reverse).filter (·.unit = c.unit) := by
      apply List.filter_congr
      intro c' _
      rw [← hplace, decide_eq_decide]
      exact UInt32.toNat_inj
    rw [← hcharges, hsame]
    exact amounts_of_unit_le h c.unit

/-- All units together are charged for no more than one span each. -/
theorem amounts_time_le (h : Punctual span actions) :
    (time units).amounts ((time units).entries [] actions.reverse) ≤ units * span :=
  sum_le_mul_of_key_lt (fun _ => unit_lt_of_mem_entries_time) (amounts_of_place_le h)

end Journal

theorem Journal.amounts_due_le {units span : Nat} {actions : List Action} (h : Punctual span actions) :
    (time units).amounts ((time units).sinceReset actions.reverse) ≤ units * span :=
  (amounts_le_of_sublist _ (sinceReset_suffix _ _).sublist).trans (amounts_time_le h)

namespace Ledger

variable (r : Resolver) (units : Nat) (caps : Capacities) {span : Nat} {actions : List Action}

/-- However the table fills up, whoever runs where, and whatever the switches say of the outgoing tasks: a run
of units that switch in the order of time charges no more than the span for each. -/
theorem charged_le (h : Punctual span actions) : ((Ledger.new units caps).run r actions).charged ≤ units * span :=
  (carried_cpu r units caps actions).sum_loads_le.trans (Journal.amounts_due_le h)

theorem charged_eq (h : Punctual span actions) (hfits : units * span < 2 ^ 64) :
    ((Ledger.new units caps).run r actions).charged =
      (Journal.time units).amounts
        ((Journal.time units).accepted caps.cpu.toNat ((Journal.time units).sinceReset actions.reverse)) :=
  (carried_cpu r units caps actions).sum_loads ((Journal.amounts_due_le h).trans_lt hfits)

end Ledger

theorem map_since_switchesOn (tasks : TaskTable) (unit : UnitId) (events : List Event) :
    (switchesOn unit (events.map (Replay.action tasks))).map Slot.since = timesOn unit events := by
  induction events with
  | nil => rfl
  | cons e events ih =>
    rw [List.map_cons, switchesOn_cons, List.map_append, ih]
    by_cases he : e.unit = unit
    · subst he
      cases e with
      | switch u ts prev next => simp [Replay.action, Action.slot?, Event.unit]
      | fault u pid => simp [Replay.action, Action.slot?, Event.unit]
    · rw [slot?_action_of_ne he, timesOn_cons_of_ne he]
      rfl

namespace Trace

variable {trace : Trace}

theorem nanos_switchSpan {first last : UInt64} (hmin : (trace.events.filterMap Event.time?).min? = some first)
    (hmax : (trace.events.filterMap Event.time?).max? = some last) :
    trace.switchSpan.nanos = (last - first).toNat := by
  simp only [switchSpan, hmin, hmax]

theorem time_le_add_switchSpan {ts ts' : UInt64} (h : ts ∈ trace.events.filterMap Event.time?)
    (h' : ts' ∈ trace.events.filterMap Event.time?) : ts'.toNat ≤ ts.toNat + trace.switchSpan.nanos := by
  cases hmin : (trace.events.filterMap Event.time?).min? with
  | none =>
    rw [List.min?_eq_none_iff.1 hmin] at h
    cases h
  | some first =>
    cases hmax : (trace.events.filterMap Event.time?).max? with
    | none =>
      rw [List.max?_eq_none_iff.1 hmax] at h
      cases h
    | some last =>
      have hfirst := (List.min?_eq_some_iff.1 hmin).2
      have hlast := (List.max?_eq_some_iff.1 hmax).2 ts' h'
      have hspan : first ≤ last := hfirst last (List.max?_mem hmax)
      have hts := hfirst ts h
      rw [nanos_switchSpan hmin hmax, UInt64.toNat_sub_of_le _ _ hspan]
      rw [UInt64.le_iff_toNat_le] at hts hlast hspan
      omega

theorem punctual (hasc : SwitchesAscend trace.events) {events : List Event}
    (h : Interleaves (fun unit => onUnit unit trace.events) events) (tasks : TaskTable) :
    Punctual trace.switchSpan.nanos (events.map (Replay.action tasks)) := by
  have htimes (unit : UnitId) : (switchesOn unit (events.map (Replay.action tasks))).map Slot.since =
      timesOn unit trace.events := by
    rw [map_since_switchesOn, timesOn, h unit, timesOn]
  have htime {unit : UnitId} {s : Slot} (hs : s ∈ switchesOn unit (events.map (Replay.action tasks))) :
      s.since ∈ trace.events.filterMap Event.time? :=
    (List.filter_sublist.filterMap _).subset (htimes unit ▸ List.mem_map_of_mem hs)
  refine ⟨fun unit => ?_, fun unit s hs s' hs' => time_le_add_switchSpan (htime hs) (htime hs')⟩
  rw [htimes]
  exact hasc unit

end Trace

/-- An accepted trace whose units switch in the order of time, replayed as one window on as many units as it
needs: all entries of the CPU table together have at most the time from the first switch to the last, once for
each unit, so that no more than the whole machine is shared out. The order in which the units are replayed does
not matter, and where the machine's time fits into a word the entries have all of it that was charged to the
entities they stand for. -/
theorem charged_of_replay {content : Bytes} {trace : Trace} (h : Trace.read content = .ok trace)
    (hasc : SwitchesAscend trace.events) {caps : Capacities} (hcaps : caps.check = .ok ()) :
    ∃ o, trace.replay none none caps = .ok o ∧ o.window = trace.switchSpan ∧
      o.replay.units.toNat = (trace.maxUnit.map fun unit => unit.toNat + 1).getD 1 ∧
      o.replay.ledger.charged ≤ o.replay.units.toNat * trace.switchSpan.nanos ∧
      (o.replay.ledger.shares ⟨o.window, o.replay.units⟩).sum ≤ 1 ∧
      ∀ events, Interleaves (fun unit => onUnit unit trace.events) events →
        let told := events.map (Replay.action o.replay.tasks)
        let l := (Ledger.new o.replay.units.toNat caps).run .leafThenParent told
        let time := Journal.time o.replay.units.toNat
        l.charged ≤ o.replay.units.toNat * trace.switchSpan.nanos ∧
        (l.shares ⟨o.window, o.replay.units⟩).sum ≤ 1 ∧
        (o.replay.units.toNat * trace.switchSpan.nanos < 2 ^ 64 →
          l.charged = time.amounts (time.accepted caps.cpu.toNat (time.sinceReset told.reverse))) := by
  have hunit := Trace.unit_lt h
  rw [Trace.replay, Replay.forTrace_eq hunit hcaps]
  have hpunctual {events : List Event} (hin : Interleaves (fun unit => onUnit unit trace.events) events) :=
    Trace.punctual hasc hin (.ofDeclarations trace.tasks)
  have hfed := Ledger.charged_le .leafThenParent (Replay.unitsFor trace none).toNat caps
    (hpunctual (Interleaves.self trace.events).byUnit)
  refine ⟨_, rfl, rfl, Replay.toNat_unitsFor hunit, hfed, Ledger.sum_shares_le hfed, ?_⟩
  intro events hin told l time
  have hle := Ledger.charged_le .leafThenParent (Replay.unitsFor trace none).toNat caps (hpunctual hin)
  exact ⟨hle, Ledger.sum_shares_le hle, Ledger.charged_eq .leafThenParent _ caps (hpunctual hin)⟩

/-- Two units run the same task, one of them says that another task leaves, and the table has a single place. -/
theorem charged_of_contradicting_units :
    let content := Text.Utf8.encode (
      "[\"switch\",0,100,0,5]\n[\"switch\",1,110,0,5]\n[\"switch\",0,150,9,7]\n" ++
      "[\"switch\",0,170,7,0]\n[\"switch\",1,180,5,7]\n")
    let trace : Trace :=
      ⟨[], [.switch 0 100 0 5, .switch 1 110 0 5, .switch 0 150 9 7, .switch 0 170 7 0, .switch 1 180 5 7]⟩
    Trace.read content = .ok trace ∧ SwitchesAscend trace.events ∧ Capacities.check ⟨1, 1, 1⟩ = .ok () ∧
      ∃ o, trace.replay none none ⟨1, 1, 1⟩ = .ok o ∧ o.replay.ledger.charged ≤ 2 * 80 ∧
        (o.replay.ledger.shares ⟨o.window, o.replay.units⟩).sum ≤ 1 := by
  intro content trace
  have hread : Trace.read content = .ok trace := Trace.read_eq_ok (by decide +kernel)
  have hasc : SwitchesAscend trace.events := by
    intro unit
    by_cases hzero : 0 = unit
    · subst hzero; decide
    · by_cases hone : 1 = unit
      · subst hone; decide
      · simp [trace, timesOn, onUnit, Event.unit, hzero, hone]
  have hcaps : Capacities.check ⟨1, 1, 1⟩ = .ok () := rfl
  obtain ⟨o, ho, -, hunits, hle, hshares, -⟩ := charged_of_replay hread hasc hcaps
  have hspan : trace.switchSpan.nanos = 80 := rfl
  rw [hunits, hspan] at hle
  exact ⟨hread, hasc, hcaps, o, ho, hle, hshares⟩

end SchedLedger
