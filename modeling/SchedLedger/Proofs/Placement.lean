import SchedLedger.Proofs.Partition

/-! Where an event is placed. The length of an interval is capped to a word before the times are divided by
it. Up to that cap the division is exact, and a longer interval would hold every time there is; but the cap is
itself a time, one short of such an interval. -/

namespace SchedLedger

theorem timesOn_append (unit : UnitId) (past events : List Event) :
    timesOn unit (past ++ events) = timesOn unit past ++ timesOn unit events := by
  simp [timesOn, onUnit]

/-- Every event with those before it, of which some are given. -/
def withPast : List Event → List Event → List (List Event × Event)
  | _, [] => []
  | past, e :: es => (past, e) :: withPast (past ++ [e]) es

theorem append_prefix_of_mem_withPast {past events : List Event} {p : List Event × Event}
    (h : p ∈ withPast past events) : p.1 ++ [p.2] <+: past ++ events := by
  induction events generalizing past with
  | nil => cases h
  | cons e es ih =>
    rcases List.mem_cons.1 h with rfl | h
    · exact ⟨es, by simp⟩
    · simpa using ih h

theorem exists_group_of_mem {α : Type} {xs : List (UInt64 × α)} {x : UInt64 × α} (h : x ∈ xs) :
    ∃ g ∈ groupByKey xs, g.1 = x.1 := by
  have hsorted : x ∈ xs.mergeSort (·.1 ≤ ·.1) := List.mem_mergeSort.2 h
  rw [← flatMap_groupStep (xs.mergeSort _)] at hsorted
  obtain ⟨g, hg, hx⟩ := List.mem_flatMap.1 hsorted
  obtain ⟨y, -, rfl⟩ := List.mem_map.1 hx
  exact ⟨g, hg, rfl⟩

namespace Window

/-- The interval of the last switch of a unit among the events, the first one if there is none. -/
def followed (index : UInt64 → UInt64) (unit : UnitId) (past : List Event) : UInt64 :=
  (timesOn unit past).getLast?.elim 0 index

/-- Where an event belongs after others, by the intervals of the times. -/
def place (index : UInt64 → UInt64) (past : List Event) : Event → UInt64
  | .switch _ ts _ _ => index ts
  | .fault unit _ => followed index unit past

/-- The windows ascend, and they hold every event where it belongs, in the order of the events. -/
structure Follows (index : UInt64 → UInt64) (events : List Event) (ws : List Window) : Prop where
  ascends : ws.Pairwise (·.index < ·.index)
  complete : ∀ p ∈ withPast [] events, ∃ w ∈ ws, w.index = place index p.1 p.2
  content : ∀ w ∈ ws,
    w.events = ((withPast [] events).filter fun p => place index p.1 p.2 = w.index).map (·.2)

/-- The time stands in the interval with this number, of all those that follow one another from `first` on. -/
def Holds (first : UInt64) (interval : Span) (number ts : UInt64) : Prop :=
  first.toNat + number.toNat * interval.nanos ≤ ts.toNat ∧
    ts.toNat < first.toNat + (number.toNat + 1) * interval.nanos

/-- The number of the interval of a time, as it is found by division. -/
def numberOf (base step ts : UInt64) : UInt64 :=
  (ts - base) / step

section Placed

variable {base step : UInt64}

theorem followed_switch_self (index : UInt64 → UInt64) (unit : UnitId) (past : List Event) (ts : UInt64)
    (prev next : Pid) : followed index unit (past ++ [.switch unit ts prev next]) = index ts := by
  rw [followed, timesOn_append, timesOn_switch]
  simp [timesOn, onUnit]

theorem followed_fault_self (index : UInt64 → UInt64) (unit : UnitId) (past : List Event) (pid : Pid) :
    followed index unit (past ++ [.fault unit pid]) = followed index unit past := by
  rw [followed, timesOn_append, timesOn_fault]
  simp [followed, timesOn, onUnit]

theorem followed_of_ne {unit : UnitId} {e : Event} (h : e.unit ≠ unit) (index : UInt64 → UInt64)
    (past : List Event) : followed index unit (past ++ [e]) = followed index unit past := by
  rw [followed, timesOn_append, timesOn_cons_of_ne h]
  simp [followed, timesOn, onUnit]

theorem lastOn_indexOf (last : LastIndex) (past : List Event) (e : Event)
    (h : ∀ unit, lastOn unit last = followed (numberOf base step) unit past) (unit : UnitId) :
    lastOn unit (indexOf base step last e).2 =
      followed (numberOf base step) unit (past ++ [e]) := by
  by_cases he : e.unit = unit
  · subst he
    cases e with
    | switch u ts prev next =>
      exact (lastOn_switch_self base step last ts prev next).trans
        (followed_switch_self (numberOf base step) u past ts prev next).symm
    | fault u pid => exact (h u).trans (followed_fault_self _ u past pid).symm
  · rw [lastOn_indexOf_of_ne he, followed_of_ne he, h]

theorem placedFrom_eq_map_withPast (last : LastIndex) (past events : List Event)
    (h : ∀ unit, lastOn unit last = followed (numberOf base step) unit past) :
    placedFrom base step last events =
      (withPast past events).map fun p => (place (numberOf base step) p.1 p.2, p.2) := by
  -- the intervals kept along the way are those of the last switches among the events passed
  induction events generalizing last past with
  | nil => rfl
  | cons e es ih =>
    have hplace : (indexOf base step last e).1 = place (numberOf base step) past e := by
      cases e with
      | switch u ts prev next => rfl
      | fault u pid => exact h u
    rw [placedFrom, withPast, List.map_cons, hplace, ih _ _ (lastOn_indexOf last past e h)]

theorem placed_eq_map_withPast (base step : UInt64) (events : List Event) :
    placed base step events =
      (withPast [] events).map fun p => (place (numberOf base step) p.1 p.2, p.2) := by
  rw [placed_eq_placedFrom]
  exact placedFrom_eq_map_withPast [] [] events fun unit => rfl

theorem place_cases (index : UInt64 → UInt64) {events : List Event} {p : List Event × Event}
    (h : p ∈ withPast [] events) :
    place index p.1 p.2 = 0 ∨ ∃ ts ∈ events.filterMap Event.time?, place index p.1 p.2 = index ts := by
  obtain ⟨past, e⟩ := p
  have hpre : past ++ [e] <+: events := append_prefix_of_mem_withPast h
  cases e with
  | switch u ts prev next =>
    have hmem : Event.switch u ts prev next ∈ events := hpre.subset (by simp)
    exact .inr ⟨ts, List.mem_filterMap.2 ⟨_, hmem, rfl⟩, rfl⟩
  | fault u pid =>
    cases hlast : (timesOn u past).getLast? with
    | none => exact .inl (by simp [place, followed, hlast])
    | some ts =>
      have hts := time?_mem_of_mem_timesOn (List.mem_of_getLast? hlast)
      have hsub : past.filterMap Event.time? <+: events.filterMap Event.time? :=
        ((List.prefix_append past [_]).trans hpre).filterMap _
      exact .inr ⟨ts, hsub.subset hts, by simp [place, followed, hlast]⟩

end Placed

section Split

variable {events : List Event} {interval : Span} {ws : List Window}

theorem follows_of_split (h : split events interval = .ok ws) :
    Follows (numberOf (origin events) interval.toWord) events ws := by
  have hplaced := placed_eq_map_withPast (origin events) interval.toWord events
  refine ⟨pairwise_index_of_split h, fun p hp => ?_, fun w hw => ?_⟩
  · have hmem : (place (numberOf (origin events) interval.toWord) p.1 p.2, p.2) ∈
        placed (origin events) interval.toWord events := by
      rw [hplaced]
      exact List.mem_map_of_mem hp
    obtain ⟨g, hg, hkey⟩ := exists_group_of_mem hmem
    rw [split_eq h]
    exact ⟨_, List.mem_map_of_mem hg, hkey⟩
  · rw [events_of_mem_split h hw, hplaced, List.filter_map, List.map_map]
    rfl

theorem index_of_mem_split (h : split events interval = .ok ws) {w : Window} (hw : w ∈ ws) :
    w.index = 0 ∨
      ∃ ts ∈ events.filterMap Event.time?, w.index = numberOf (origin events) interval.toWord ts := by
  obtain ⟨e, he⟩ := List.exists_mem_of_ne_nil _ (events_ne_nil_of_mem_split h hw)
  rw [(follows_of_split h).content w hw] at he
  obtain ⟨p, hp, -⟩ := List.mem_map.1 he
  obtain ⟨hp, hindex⟩ := List.mem_filter.1 hp
  rw [← of_decide_eq_true hindex]
  exact place_cases _ hp

theorem toNat_numberOf {ts : UInt64} (h : ts ∈ events.filterMap Event.time?) :
    (numberOf (origin events) interval.toWord ts).toNat =
      (ts.toNat - (origin events).toNat) / min interval.nanos (UInt64.size - 1) := by
  rw [numberOf, UInt64.toNat_div, UInt64.toNat_sub_of_le _ _ (origin_le h), Span.toNat_toWord]

/-- The division finds the interval of a time, unless the interval is longer than a word and the time as late
as a word can say, counted from zero. -/
theorem holds_numberOf_iff (hpos : 0 < interval.nanos) {ts : UInt64} (h : ts ∈ events.filterMap Event.time?) :
    Holds (origin events) interval (numberOf (origin events) interval.toWord ts) ts ↔
      ¬(UInt64.size ≤ interval.nanos ∧ (origin events).toNat = 0 ∧ ts.toNat = UInt64.size - 1) := by
  have hle : (origin events).toNat ≤ ts.toNat := UInt64.le_iff_toNat_le.1 (origin_le h)
  have hts : ts.toNat < UInt64.size := ts.toNat_lt
  rw [Holds, toNat_numberOf h]
  by_cases hlong : UInt64.size ≤ interval.nanos
  · -- the cap divides every span of time below itself into nothing, and only the span of its own length once
    rw [Nat.min_eq_right (by omega)]
    by_cases hlast : ts.toNat - (origin events).toNat = UInt64.size - 1
    · rw [hlast, Nat.div_self (by decide)]
      omega
    · rw [Nat.div_eq_of_lt (by omega)]
      omega
  · have hdiv := Nat.div_mul_le_self (ts.toNat - (origin events).toNat) interval.nanos
    have hmod := Nat.lt_div_mul_add (a := ts.toNat - (origin events).toNat) hpos
    rw [Nat.min_eq_left (by omega), Nat.succ_mul]
    omega

theorem start_of_mem_split (h : split events interval = .ok ws) {w : Window} (hw : w ∈ ws) :
    w.start = ⟨w.index.toNat * min interval.nanos (UInt64.size - 1)⟩ := by
  have hstart : w.start = startOf interval.toWord w.index := by
    rw [split_eq h] at hw
    obtain ⟨g, -, rfl⟩ := List.mem_map.1 hw
    rfl
  have hcap : w.index.toNat * min interval.nanos (UInt64.size - 1) ≤ UInt64.size - 1 := by
    rcases index_of_mem_split h hw with hzero | ⟨ts, hts, hindex⟩
    · simp [hzero]
    · rw [hindex, toNat_numberOf hts]
      refine (Nat.div_mul_le_self _ _).trans ?_
      have hlt : ts.toNat < UInt64.size := ts.toNat_lt
      omega
  rw [hstart, startOf, Span.toNat_toWord, Nat.min_eq_left hcap]

theorem start_eq_iff (h : split events interval = .ok ws) {w : Window} (hw : w ∈ ws) :
    w.start = ⟨w.index.toNat * interval.nanos⟩ ↔ interval.nanos < UInt64.size ∨ w.index = 0 := by
  have hcap : min interval.nanos (UInt64.size - 1) = interval.nanos ↔ interval.nanos < UInt64.size := by
    simp only [UInt64.size]
    omega
  have hzero : w.index.toNat = 0 ↔ w.index = 0 := UInt64.toNat_inj (b := 0)
  rw [start_of_mem_split h hw, Span.mk.injEq, mul_eq_mul_left_iff, hcap, hzero]

theorem origin_mem {ts : UInt64} (h : ts ∈ events.filterMap Event.time?) :
    origin events ∈ events.filterMap Event.time? :=
  (List.min?_eq_some_iff.1 (min?_eq_origin h)).1

end Split

/-- Any interval that is not empty cuts the events into windows that hold every event where it belongs: a
switch in the interval that is found for its time, a fault in that of the last switch before it on its unit.
Counted from the earliest time, the interval that is found holds the time and its window starts where it
should. Only an interval that is longer than a word misses: the latest time a word can say stands in the second
interval if zero is the earliest, and the start of that one is short. -/
theorem split_places (events : List Event) {interval : Span} (h : 0 < interval.nanos) :
    ∃ ws index, split events interval = .ok ws ∧ Follows index events ws ∧
      (∀ ts ∈ events.filterMap Event.time?,
        origin events ∈ events.filterMap Event.time? ∧ origin events ≤ ts ∧
        (index ts).toNat = (ts.toNat - (origin events).toNat) / min interval.nanos (UInt64.size - 1) ∧
        (Holds (origin events) interval (index ts) ts ↔
          ¬(UInt64.size ≤ interval.nanos ∧ (origin events).toNat = 0 ∧ ts.toNat = UInt64.size - 1))) ∧
      ∀ w ∈ ws,
        w.start = ⟨w.index.toNat * interval.nanos⟩ ↔ interval.nanos < UInt64.size ∨ w.index = 0 := by
  obtain ⟨ws, hws⟩ := exists_split events h
  exact ⟨ws, numberOf (origin events) interval.toWord, hws, follows_of_split hws,
    fun ts hts => ⟨origin_mem hts, origin_le hts, toNat_numberOf hts, holds_numberOf_iff h hts⟩,
    fun w hw => start_eq_iff hws hw⟩

/-- Two units and an interval of ten milliseconds: a time on the boundary, the one before it, a fault before
any switch of its unit and a fault after a switch that stands late in the trace. -/
theorem split_places_at_boundary :
    let events : List Event :=
      [.fault 1 9, .switch 1 10000005 0 6, .switch 0 5 0 4, .fault 0 4, .fault 1 6, .switch 0 10000004 4 0]
    let ws : List Window :=
      [⟨0, ⟨0⟩, [.fault 1 9, .switch 0 5 0 4, .fault 0 4, .switch 0 10000004 4 0]⟩,
        ⟨1, ⟨10000000⟩, [.switch 1 10000005 0 6, .fault 1 6]⟩]
    0 < (Span.ofMillis 10).nanos ∧ split events (.ofMillis 10) = .ok ws ∧
      ∃ index, Follows index events ws ∧ Holds 5 (.ofMillis 10) (index 5) 5 ∧
        Holds 5 (.ofMillis 10) (index 10000004) 10000004 ∧ Holds 5 (.ofMillis 10) (index 10000005) 10000005 := by
  intro events ws
  have hpos : 0 < (Span.ofMillis 10).nanos := by decide
  have hplaced : placed (origin events) (Span.ofMillis 10).toWord events =
      [(0, .fault 1 9), (1, .switch 1 10000005 0 6), (0, .switch 0 5 0 4), (0, .fault 0 4), (1, .fault 1 6),
        (0, .switch 0 10000004 4 0)] := by decide
  have hws : split events (.ofMillis 10) = .ok ws := by
    simp only [split, hplaced]
    simp [ws, groupByKey, List.mergeSort, List.MergeSort.Internal.splitInTwo, groupStep, startOf, Span.toWord,
      Span.ofMillis]
  have hshort : ¬UInt64.size ≤ (Span.ofMillis 10).nanos := by decide
  obtain ⟨found, index, hfound, hfollows, htimes, -⟩ := split_places events hpos
  rw [hws] at hfound
  cases hfound
  have hholds : ∀ ts ∈ events.filterMap Event.time?, Holds 5 (.ofMillis 10) (index ts) ts :=
    fun ts hts => (htimes ts hts).2.2.2.2 fun hlong => hshort hlong.1
  exact ⟨hpos, hws, index, hfollows, hholds 5 (by decide), hholds _ (by decide), hholds _ (by decide)⟩

/-- Intervals longer than a word: the first one reaches beyond the latest time, which is put into the second
one all the same. -/
theorem split_misplaces_latest_time :
    let events : List Event := [.switch 0 0 0 1, .switch 0 18446744073709551615 1 0]
    let interval := Span.ofMillis 18446744073710
    ¬∃ ws index, split events interval = .ok ws ∧ Follows index events ws ∧
      ∀ ts ∈ events.filterMap Event.time?, Holds (origin events) interval (index ts) ts := by
  rintro events interval ⟨ws, index, hsplit, hfollows, hholds⟩
  have hplaced : placed (origin events) interval.toWord events =
      [(0, .switch 0 0 0 1), (1, .switch 0 18446744073709551615 1 0)] := by decide
  have hws : split events interval =
      .ok [⟨0, ⟨0⟩, [.switch 0 0 0 1]⟩,
        ⟨1, ⟨18446744073709551615⟩, [.switch 0 18446744073709551615 1 0]⟩] := by
    simp only [split, hplaced]
    simp [interval, groupByKey, List.mergeSort, List.MergeSort.Internal.splitInTwo, groupStep, startOf,
      Span.toWord, Span.ofMillis]
  rw [hws] at hsplit
  cases hsplit
  -- no word lies beyond the first interval, so there the events would have to stand
  have hfirst (ts : UInt64) (hts : ts ∈ events.filterMap Event.time?) : index ts = 0 := by
    have hle := (hholds ts hts).1
    have hlong : UInt64.size ≤ interval.nanos := by decide
    have hlt : ts.toNat < UInt64.size := ts.toNat_lt
    refine UInt64.toNat_inj.1 (Nat.eq_zero_of_not_pos fun hone => ?_)
    have := Nat.mul_le_mul hone hlong
    omega
  have hevents := hfollows.content _ List.mem_cons_self
  simp [withPast, place, hfirst 0 (by decide), hfirst 18446744073709551615 (by decide), events] at hevents

end Window
end SchedLedger
