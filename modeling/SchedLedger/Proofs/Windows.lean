import SchedLedger.Proofs.Interleaving
import SchedLedger.Replay.Windows

/-! Windows of a trace. Grouping by index is a stable sort, so what is cut into windows is put together
again by joining them, up to the order of events on different units. On a unit whose switches come in the
order of their times the index never falls, faults included, and so even the order is kept. -/

namespace SchedLedger

theorem flatMap_groupStep {κ α : Type} [DecidableEq κ] (xs : List (κ × α)) :
    (xs.foldr groupStep []).flatMap (fun g => g.2.map (g.1, ·)) = xs := by
  induction xs with
  | nil => rfl
  | cons x xs ih =>
    rw [List.foldr_cons]
    cases hg : xs.foldr groupStep [] with
    | nil =>
      rw [hg] at ih
      simpa [groupStep] using ih
    | cons g rest =>
      obtain ⟨k, ys⟩ := g
      rw [hg, List.flatMap_cons] at ih
      by_cases hk : x.1 = k
      · simp only [groupStep, hk, if_true, List.flatMap_cons, List.map_cons, List.cons_append, ih]
        rw [← hk]
      · simp only [groupStep, hk, if_false, List.flatMap_cons, List.map_cons, List.map_nil,
          List.cons_append, List.nil_append, ih]

theorem flatMap_groupByKey {α : Type} (xs : List (UInt64 × α)) :
    (groupByKey xs).flatMap (·.2) = (xs.mergeSort (·.1 ≤ ·.1)).map (·.2) := by
  have h := congrArg (List.map (·.2)) (flatMap_groupStep (xs.mergeSort (·.1 ≤ ·.1)))
  rw [List.map_flatMap] at h
  simpa [groupByKey, Function.comp_def] using h

theorem key_trans {α : Type} (a b c : UInt64 × α) (hab : decide (a.1 ≤ b.1) = true)
    (hbc : decide (b.1 ≤ c.1) = true) : decide (a.1 ≤ c.1) = true := by
  simp only [decide_eq_true_eq] at *
  exact UInt64.le_trans hab hbc

theorem key_total {α : Type} (a b : UInt64 × α) : (decide (a.1 ≤ b.1) || decide (b.1 ≤ a.1)) = true := by
  simpa using UInt64.le_total a.1 b.1

theorem Span.toNat_toWord (interval : Span) :
    interval.toWord.toNat = min interval.nanos (UInt64.size - 1) := by
  rw [Span.toWord, UInt64.toNat_ofNat_of_lt' (by simp only [UInt64.size]; omega)]

/-- The times of the switches on a unit, in the order of the events. -/
def timesOn (unit : UnitId) (events : List Event) : List UInt64 :=
  (onUnit unit events).filterMap Event.time?

/-- The switches of every unit stand in the order of their times. -/
def SwitchesAscend (events : List Event) : Prop :=
  ∀ unit, (timesOn unit events).Pairwise (· ≤ ·)

@[simp] theorem timesOn_switch (unit : UnitId) (ts : UInt64) (prev next : Pid) (events : List Event) :
    timesOn unit (.switch unit ts prev next :: events) = ts :: timesOn unit events := by
  rw [timesOn, onUnit, List.filter_cons_of_pos (by simp [Event.unit])]
  rfl

@[simp] theorem timesOn_fault (unit : UnitId) (pid : Pid) (events : List Event) :
    timesOn unit (.fault unit pid :: events) = timesOn unit events := by
  rw [timesOn, onUnit, List.filter_cons_of_pos (by simp [Event.unit])]
  rfl

theorem timesOn_cons_of_ne {unit : UnitId} {e : Event} (h : e.unit ≠ unit) (events : List Event) :
    timesOn unit (e :: events) = timesOn unit events := by
  simp [timesOn, onUnit, h]

theorem time?_mem_of_mem_timesOn {unit : UnitId} {ts : UInt64} {events : List Event}
    (h : ts ∈ timesOn unit events) : ts ∈ events.filterMap Event.time? :=
  (List.filter_sublist.filterMap _).subset h

theorem onUnit_map_snd {ι : Type} (unit : UnitId) (ps : List (ι × Event)) :
    onUnit unit (ps.map (·.2)) = (ps.filter (·.2.unit = unit)).map (·.2) :=
  List.filter_map

namespace Window

variable {base step : UInt64} {unit : UnitId}

/-- The events and their intervals, from given intervals of the last switches on. -/
def placedFrom (base step : UInt64) : LastIndex → List Event → List (UInt64 × Event)
  | _, [] => []
  | last, e :: es =>
    ((indexOf base step last e).1, e) :: placedFrom base step (indexOf base step last e).2 es

theorem foldl_placeStep (base step : UInt64) (events : List Event) (before : List (UInt64 × Event))
    (last : LastIndex) :
    (events.foldl (placeStep base step) (before, last)).1 =
      (placedFrom base step last events).reverse ++ before := by
  induction events generalizing before last with
  | nil => rfl
  | cons e es ih => rw [List.foldl_cons, placeStep, ih]; simp [placedFrom]

theorem placed_eq_placedFrom (base step : UInt64) (events : List Event) :
    placed base step events = placedFrom base step [] events := by
  rw [placed, foldl_placeStep, List.append_nil, List.reverse_reverse]

theorem map_snd_placedFrom (base step : UInt64) (last : LastIndex) (events : List Event) :
    (placedFrom base step last events).map (·.2) = events := by
  induction events generalizing last with
  | nil => rfl
  | cons e es ih => rw [placedFrom, List.map_cons, ih]

/-- The interval of the last switch on a unit, the first one before any. -/
def lastOn (unit : UnitId) (last : LastIndex) : UInt64 :=
  (last.lookup unit).getD 0

theorem lookup_eraseP_of_ne {u : UnitId} (h : u ≠ unit) (last : LastIndex) :
    (last.eraseP (·.1 = u)).lookup unit = last.lookup unit := by
  induction last with
  | nil => rfl
  | cons p last ih =>
    obtain ⟨v, i⟩ := p
    by_cases hv : v = u
    · subst hv
      rw [List.eraseP_cons_of_pos (by simp), List.lookup_cons, beq_false_of_ne (Ne.symm h)]
    · rw [List.eraseP_cons_of_neg (by simpa using hv), List.lookup_cons, List.lookup_cons, ih]

theorem lastOn_switch_self (base step : UInt64) (last : LastIndex) (ts : UInt64) (prev next : Pid) :
    lastOn unit (indexOf base step last (.switch unit ts prev next)).2 = (ts - base) / step := by
  simp [lastOn, indexOf]

theorem lastOn_indexOf_of_ne {e : Event} (h : e.unit ≠ unit) (base step : UInt64) (last : LastIndex) :
    lastOn unit (indexOf base step last e).2 = lastOn unit last := by
  cases e with
  | fault u pid => rfl
  | switch u ts prev next =>
    have hu : u ≠ unit := h
    rw [lastOn, indexOf, List.lookup_cons, beq_false_of_ne (Ne.symm hu), lookup_eraseP_of_ne hu, lastOn]

theorem index_mono {ts ts' : UInt64} (h : base ≤ ts) (h' : ts ≤ ts') :
    (ts - base) / step ≤ (ts' - base) / step := by
  rw [UInt64.le_iff_toNat_le, UInt64.toNat_div, UInt64.toNat_div, UInt64.toNat_sub_of_le _ _ h,
    UInt64.toNat_sub_of_le _ _ (UInt64.le_trans h h')]
  rw [UInt64.le_iff_toNat_le] at h'
  exact Nat.div_le_div_right (Nat.sub_le_sub_right h' _)

/-- On a unit whose switches come in the order of their times the intervals ascend, from that of its last
switch on. A fault stands in that interval, so it neither falls behind nor runs ahead. -/
theorem placedFrom_ascends (events : List Event) (last : LastIndex)
    (hbase : ∀ ts ∈ timesOn unit events, base ≤ ts ∧ lastOn unit last ≤ (ts - base) / step)
    (hasc : (timesOn unit events).Pairwise (· ≤ ·)) :
    ((placedFrom base step last events).filter (·.2.unit = unit)).Pairwise (·.1 ≤ ·.1) ∧
    ∀ p ∈ (placedFrom base step last events).filter (·.2.unit = unit), lastOn unit last ≤ p.1 := by
  -- the floor under the intervals to come is `lastOn`: a switch raises it, a fault stands on it
  induction events generalizing last with
  | nil => simp [placedFrom]
  | cons e es ih =>
    by_cases he : e.unit = unit
    · cases e with
      | switch u ts prev next =>
        have hu : u = unit := he
        subst hu
        rw [timesOn_switch] at hbase hasc
        rw [List.pairwise_cons] at hasc
        obtain ⟨hts, hreach⟩ := hbase ts List.mem_cons_self
        have hstep := ih (indexOf base step last (.switch u ts prev next)).2 (fun ts' hts' => by
          rw [lastOn_switch_self]
          exact ⟨(hbase ts' (List.mem_cons_of_mem _ hts')).1, index_mono hts (hasc.1 ts' hts')⟩) hasc.2
        rw [lastOn_switch_self] at hstep
        rw [placedFrom, List.filter_cons_of_pos (by simp [Event.unit])]
        refine ⟨List.pairwise_cons.2 ⟨hstep.2, hstep.1⟩, ?_⟩
        rw [List.forall_mem_cons]
        exact ⟨hreach, fun p hp => UInt64.le_trans hreach (hstep.2 p hp)⟩
      | fault u pid =>
        have hu : u = unit := he
        subst hu
        rw [timesOn_fault] at hbase hasc
        have hstep := ih last hbase hasc
        rw [placedFrom, List.filter_cons_of_pos (by simp [Event.unit])]
        refine ⟨List.pairwise_cons.2 ⟨hstep.2, hstep.1⟩, ?_⟩
        rw [List.forall_mem_cons]
        exact ⟨UInt64.le_refl _, hstep.2⟩
    · rw [timesOn_cons_of_ne he] at hbase hasc
      have hlast := lastOn_indexOf_of_ne he base step last
      have hstep := ih (indexOf base step last e).2 (by rwa [hlast]) hasc
      rw [hlast] at hstep
      rwa [placedFrom, List.filter_cons_of_neg (by simpa using he)]

theorem min?_eq_origin {events : List Event} {ts : UInt64} (h : ts ∈ events.filterMap Event.time?) :
    (events.filterMap Event.time?).min? = some (origin events) := by
  cases hmin : (events.filterMap Event.time?).min? with
  | none =>
    rw [List.min?_eq_none_iff.1 hmin] at h
    cases h
  | some first => rw [origin, hmin, Option.getD_some]

theorem origin_le {events : List Event} {ts : UInt64} (h : ts ∈ events.filterMap Event.time?) :
    origin events ≤ ts :=
  (List.min?_eq_some_iff.1 (min?_eq_origin h)).2 ts h

theorem placed_ascends {events : List Event} (h : SwitchesAscend events) (step : UInt64) (unit : UnitId) :
    ((placed (origin events) step events).filter (·.2.unit = unit)).Pairwise (·.1 ≤ ·.1) := by
  rw [placed_eq_placedFrom]
  refine (placedFrom_ascends events [] (fun ts hts => ⟨?_, UInt64.zero_le⟩) (h unit)).1
  exact origin_le (time?_mem_of_mem_timesOn hts)

theorem exists_split (events : List Event) {interval : Span} (h : 0 < interval.nanos) :
    ∃ ws, split events interval = .ok ws := by
  have hstep : interval.toWord ≠ 0 := by
    intro hzero
    have hnat := congrArg UInt64.toNat hzero
    rw [Span.toNat_toWord] at hnat
    simp only [UInt64.size, UInt64.toNat_zero] at hnat
    omega
  simp [split, hstep]

theorem flatMap_events_of_split {events : List Event} {interval : Span} {ws : List Window}
    (h : split events interval = .ok ws) :
    ws.flatMap Window.events =
      ((placed (origin events) interval.toWord events).mergeSort (·.1 ≤ ·.1)).map (·.2) := by
  simp only [split] at h
  split at h
  · cases h
  · cases h
    rw [List.flatMap_map, ← flatMap_groupByKey]

/-- Cut into windows and joined again, the events of every unit stand as they stood. -/
theorem onUnit_flatMap_split {events : List Event} (hasc : SwitchesAscend events) {interval : Span}
    {ws : List Window} (h : split events interval = .ok ws) (unit : UnitId) :
    onUnit unit (ws.flatMap Window.events) = onUnit unit events := by
  have hplaced : ((placed (origin events) interval.toWord events).filter (·.2.unit = unit)).Pairwise
      fun a b => decide (a.1 ≤ b.1) = true := by
    simpa using placed_ascends hasc interval.toWord unit
  rw [flatMap_events_of_split h, onUnit_map_snd, filter_mergeSort key_trans key_total hplaced,
    ← onUnit_map_snd, placed_eq_placedFrom, map_snd_placedFrom]

end Window
end SchedLedger
