import SchedLedger.Proofs.Windows

/-! Windows as a partition. Cutting a trace puts every event into one window and every window in its place:
the windows ascend, none is empty, and each holds the events of its interval in the order of the trace. -/

namespace SchedLedger

section Groups

variable {α : Type} {xs : List (UInt64 × α)} {groups : List (UInt64 × List α)} {g : UInt64 × List α}

theorem ne_nil_of_mem_groups (h : g ∈ xs.foldr groupStep []) : g.2 ≠ [] := by
  induction xs with
  | nil => cases h
  | cons x xs ih =>
    rw [List.foldr_cons] at h
    cases hrest : xs.foldr groupStep [] with
    | nil =>
      rw [hrest, groupStep, List.mem_singleton] at h
      rw [h]
      exact List.cons_ne_nil _ _
    | cons first rest =>
      obtain ⟨k, ys⟩ := first
      rw [hrest] at h ih
      rw [groupStep] at h
      split at h
      · rcases List.mem_cons.1 h with rfl | h
        · exact List.cons_ne_nil _ _
        · exact ih (List.mem_cons_of_mem _ h)
      · rcases List.mem_cons.1 h with rfl | h
        · exact List.cons_ne_nil _ _
        · exact ih h

theorem exists_key_of_mem_groups (h : g ∈ xs.foldr groupStep []) : ∃ x ∈ xs, x.1 = g.1 := by
  obtain ⟨y, hy⟩ := List.exists_mem_of_ne_nil _ (ne_nil_of_mem_groups h)
  refine ⟨(g.1, y), ?_, rfl⟩
  rw [← flatMap_groupStep xs]
  exact List.mem_flatMap.2 ⟨g, h, List.mem_map_of_mem hy⟩

/-- Where the elements ascend by key, a key that is met again is still that of the last group. -/
theorem pairwise_groups (h : xs.Pairwise (·.1 ≤ ·.1)) : (xs.foldr groupStep []).Pairwise (·.1 < ·.1) := by
  induction xs with
  | nil => exact List.Pairwise.nil
  | cons x xs ih =>
    rw [List.pairwise_cons] at h
    have hgroups := ih h.2
    rw [List.foldr_cons]
    cases hrest : xs.foldr groupStep [] with
    | nil => exact List.pairwise_singleton _ _
    | cons first rest =>
      obtain ⟨k, ys⟩ := first
      have hfirst : (k, ys) ∈ xs.foldr groupStep [] := hrest ▸ List.mem_cons_self
      obtain ⟨y, hy, hk⟩ := exists_key_of_mem_groups hfirst
      rw [hrest, List.pairwise_cons] at hgroups
      rw [groupStep]
      split
      · exact List.pairwise_cons.2 hgroups
      · next hne =>
        have hlt : x.1 < k := UInt64.lt_of_le_of_ne (UInt64.le_trans (h.1 y hy) (UInt64.le_of_eq hk)) hne
        refine List.pairwise_cons.2 ⟨?_, List.pairwise_cons.2 hgroups⟩
        rw [List.forall_mem_cons]
        exact ⟨hlt, fun p hp => UInt64.lt_trans hlt (hgroups.1 p hp)⟩

/-- Of groups with keys of their own joined together, the elements of one key are those of its group. -/
theorem filter_flatMap_groups (h : groups.Pairwise (·.1 < ·.1)) (hg : g ∈ groups) :
    (groups.flatMap fun p => p.2.map (p.1, ·)).filter (·.1 = g.1) = g.2.map (g.1, ·) := by
  induction groups with
  | nil => cases hg
  | cons p groups ih =>
    rw [List.pairwise_cons] at h
    rw [List.flatMap_cons, List.filter_append]
    rcases List.mem_cons.1 hg with rfl | hg
    -- all other groups have other keys
    · have hrest : (groups.flatMap fun p => p.2.map (p.1, ·)).filter (·.1 = g.1) = [] := by
        rw [List.filter_eq_nil_iff]
        intro y hy
        obtain ⟨p, hp, hy⟩ := List.mem_flatMap.1 hy
        obtain ⟨z, -, rfl⟩ := List.mem_map.1 hy
        simpa using (UInt64.ne_of_lt (h.1 p hp)).symm
      rw [hrest, List.append_nil, List.filter_eq_self]
      simp
    · have hfirst : (p.2.map (p.1, ·)).filter (·.1 = g.1) = [] := by
        rw [List.filter_eq_nil_iff]
        intro y hy
        obtain ⟨z, -, rfl⟩ := List.mem_map.1 hy
        simpa using UInt64.ne_of_lt (h.1 g hg)
      rw [hfirst, List.nil_append, ih h.2 hg]

theorem pairwise_mergeSort_key (xs : List (UInt64 × α)) :
    (xs.mergeSort (·.1 ≤ ·.1)).Pairwise (·.1 ≤ ·.1) := by
  simpa using List.pairwise_mergeSort key_trans key_total xs

theorem pairwise_groupByKey (xs : List (UInt64 × α)) : (groupByKey xs).Pairwise (·.1 < ·.1) :=
  pairwise_groups (pairwise_mergeSort_key xs)

theorem eq_filter_of_mem_groupByKey (h : g ∈ groupByKey xs) :
    g.2 = (xs.filter (·.1 = g.1)).map (·.2) := by
  have hsorted : (xs.mergeSort (·.1 ≤ ·.1)).filter (·.1 = g.1) = g.2.map (g.1, ·) := by
    rw [← filter_flatMap_groups (pairwise_groupByKey xs) h, groupByKey, flatMap_groupStep]
  have hstable : (xs.mergeSort (·.1 ≤ ·.1)).filter (·.1 = g.1) = xs.filter (·.1 = g.1) := by
    apply filter_mergeSort_of_alike xs key_trans key_total
    intro a b ha hb
    simp only [decide_eq_true_eq] at *
    rw [ha, hb]
    exact UInt64.le_refl g.1
  rw [← hstable, hsorted, List.map_map]
  simp [Function.comp_def]

end Groups

namespace Window

variable {events : List Event} {interval : Span} {ws : List Window} {w : Window}

theorem split_eq (h : split events interval = .ok ws) :
    ws = (groupByKey (placed (origin events) interval.toWord events)).map fun g =>
      ⟨g.1, startOf interval.toWord g.1, g.2⟩ := by
  simp only [split] at h
  split at h
  · cases h
  · cases h
    rfl

theorem map_snd_placed (base step : UInt64) (events : List Event) :
    (placed base step events).map (·.2) = events := by
  rw [placed_eq_placedFrom, map_snd_placedFrom]

theorem events_of_mem_split (h : split events interval = .ok ws) (hw : w ∈ ws) :
    w.events =
      ((placed (origin events) interval.toWord events).filter (·.1 = w.index)).map (·.2) := by
  rw [split_eq h] at hw
  obtain ⟨g, hg, rfl⟩ := List.mem_map.1 hw
  exact eq_filter_of_mem_groupByKey hg

theorem events_ne_nil_of_mem_split (h : split events interval = .ok ws) (hw : w ∈ ws) : w.events ≠ [] := by
  rw [split_eq h] at hw
  obtain ⟨g, hg, rfl⟩ := List.mem_map.1 hw
  exact ne_nil_of_mem_groups hg

theorem pairwise_index_of_split (h : split events interval = .ok ws) : ws.Pairwise (·.index < ·.index) := by
  rw [split_eq h, List.pairwise_map]
  exact pairwise_groupByKey _

theorem flatMap_events_perm (h : split events interval = .ok ws) : (ws.flatMap Window.events).Perm events := by
  rw [flatMap_events_of_split h]
  refine ((List.mergeSort_perm _ _).map _).trans ?_
  rw [map_snd_placed]

theorem events_sublist_of_mem_split (h : split events interval = .ok ws) (hw : w ∈ ws) :
    w.events.Sublist events := by
  have hsub := (List.filter_sublist (p := (·.1 = w.index))
    (l := placed (origin events) interval.toWord events)).map (·.2)
  rwa [← events_of_mem_split h hw, map_snd_placed] at hsub

theorem origin_le_of_mem {unit : UnitId} {ts : UInt64} {prev next : Pid}
    (h : .switch unit ts prev next ∈ events) : origin events ≤ ts :=
  origin_le (List.mem_filterMap.2 ⟨_, h, rfl⟩)

/-- Any interval that is not empty cuts the events into windows that ascend and are not empty. Every event
stands in one of them, each window keeps the order of the trace, and no time is counted from a later one. If
the switches of every unit come in the order of their times, the windows joined again have the events of every
unit as they stood. -/
theorem split_partitions (events : List Event) {interval : Span} (h : 0 < interval.nanos) :
    ∃ ws, split events interval = .ok ws ∧
      (∀ w ∈ ws, w.events ≠ []) ∧
      ws.Pairwise (·.index < ·.index) ∧
      (ws.flatMap Window.events).Perm events ∧
      (∀ w ∈ ws, w.events.Sublist events) ∧
      (SwitchesAscend events → ∀ unit, onUnit unit (ws.flatMap Window.events) = onUnit unit events) ∧
      ∀ unit ts prev next, .switch unit ts prev next ∈ events → origin events ≤ ts := by
  obtain ⟨ws, hws⟩ := exists_split events h
  exact ⟨ws, hws, fun w => events_ne_nil_of_mem_split hws, pairwise_index_of_split hws,
    flatMap_events_perm hws, fun w => events_sublist_of_mem_split hws,
    fun hasc => onUnit_flatMap_split hasc hws, fun _ _ _ _ => origin_le_of_mem⟩

/-- Two units, of which one begins with a fault; no event falls into the second and the third interval. -/
theorem split_partitions_of_two_units :
    let events : List Event :=
      [.fault 1 9, .switch 0 100 0 5, .switch 1 95 0 6, .fault 0 5, .switch 0 125 5 0, .fault 1 6,
        .switch 1 130 6 0]
    let ws : List Window :=
      [⟨0, ⟨0⟩, [.fault 1 9, .switch 0 100 0 5, .switch 1 95 0 6, .fault 0 5, .fault 1 6]⟩,
        ⟨3, ⟨30⟩, [.switch 0 125 5 0, .switch 1 130 6 0]⟩]
    0 < (Span.mk 10).nanos ∧ SwitchesAscend events ∧ split events ⟨10⟩ = .ok ws ∧
      (ws.flatMap Window.events).Perm events ∧
      ∀ unit, onUnit unit (ws.flatMap Window.events) = onUnit unit events := by
  intro events ws
  have hpos : 0 < (Span.mk 10).nanos := by decide
  have hasc : SwitchesAscend events := by
    intro unit
    by_cases hzero : 0 = unit
    · subst hzero; decide
    · by_cases hone : 1 = unit
      · subst hone; decide
      · simp [events, timesOn, onUnit, Event.unit, hzero, hone]
  have hplaced : placed (origin events) (Span.mk 10).toWord events =
      [(0, .fault 1 9), (0, .switch 0 100 0 5), (0, .switch 1 95 0 6), (0, .fault 0 5), (3, .switch 0 125 5 0),
        (0, .fault 1 6), (3, .switch 1 130 6 0)] := by decide
  have hws : split events ⟨10⟩ = .ok ws := by
    simp only [split, hplaced]
    simp [ws, groupByKey, List.mergeSort, List.MergeSort.Internal.splitInTwo, groupStep, startOf, Span.toWord]
  obtain ⟨found, hfound, -, -, hperm, -, hunits, -⟩ := split_partitions events hpos
  rw [hws] at hfound
  cases hfound
  exact ⟨hpos, hasc, hws, hperm, hunits hasc⟩

end Window
end SchedLedger
