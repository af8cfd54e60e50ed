import SchedLedger.Proofs.Windows
import SchedLedger.Replay.Report

/-! Replay in intervals. The tables are read after each window and emptied for the next, while the slots
stay. What an entity is charged for a run over several windows is charged in the one in which it leaves its
unit, so the figures of all windows add up to those of one replay of everything, however the units interleave. -/

namespace SchedLedger

theorem SameBookings.reset : SameBookings [.reset] [] :=
  ⟨fun _ => rfl, List.Perm.refl _, List.Perm.refl _⟩

namespace Replay

variable (tasks : TaskTable) (r : Replay)

/-- Tell the ledger of windows one after another, each in an order of its events: read the ledger after each, and
empty it for the next. -/
def sample : Replay → List (List Event) → List Ledger × Replay
  | r, [] => ([], r)
  | r, told :: rest =>
    let fed := r.tell told
    (fed.ledger :: (sample fed.reset rest).1, (sample fed.reset rest).2)

def sessions : List (List Event) → List Action
  | [] => []
  | told :: rest => told.map (action tasks) ++ .reset :: sessions rest

/-- Orders in which windows may be told: each keeps the order of every unit. -/
def Schedules (ws : List Window) (orders : List (List Event)) : Prop :=
  List.Forall₂ (fun w told => Interleaves (fun unit => onUnit unit w.events) told) ws orders

theorem schedules_byUnit (ws : List Window) : Schedules ws (ws.map fun w => byUnit w.events) := by
  rw [Schedules, List.forall₂_map_right_iff, List.forall₂_same]
  exact fun w _ => (Interleaves.self w.events).byUnit

theorem Schedules.interleaves {ws : List Window} {orders : List (List Event)} (h : Schedules ws orders) :
    Interleaves (fun unit => onUnit unit (ws.flatMap Window.events)) orders.flatten := by
  intro unit
  induction h with
  | nil => rfl
  | @cons w told ws orders hw hrest ih =>
    simp only [onUnit, List.flatten_cons, List.flatMap_cons, List.filter_append]
    exact congrArg₂ (· ++ ·) (hw unit) ih

/-- The program makes its reports on intervals from these readings, with the units told one after another. -/
theorem reports_eq_sample (s : Settings) (host : Host) (interval : Span) (ws : List Window) :
    r.reports s host interval ws =
      ((r.sample (ws.map fun w => byUnit w.events)).1.zip ws).mapM fun p => do
        let report ← ({ r with ledger := p.1 } : Replay).report s host interval
        return { report with index := p.2.index, start := p.2.start.toWord } := by
  induction ws generalizing r with
  | nil => rfl
  | cons w ws ih =>
    rw [reports, List.map_cons, sample, List.zip_cons_cons, List.mapM_cons, ih, bind_assoc]
    rfl

theorem ledger_sample (orders : List (List Event)) :
    (r.sample orders).2.ledger = r.ledger.run .leafThenParent (sessions r.tasks orders) := by
  induction orders generalizing r with
  | nil => rfl
  | cons told rest ih =>
    rw [sample, ih, sessions, Ledger.run_append]
    rfl

theorem sameBookings_sessions (orders : List (List Event)) :
    SameBookings (sessions tasks orders) (orders.flatten.map (action tasks)) := by
  induction orders with
  | nil => exact .refl []
  | cons told rest ih =>
    rw [sessions, List.flatten_cons, List.map_append]
    exact (SameBookings.refl _).append (SameBookings.reset.append ih)

theorem sameBookings_split {events order : List Event} (hasc : SwitchesAscend events)
    (horder : Interleaves (fun unit => onUnit unit events) order) {interval : Span} {ws : List Window}
    (hws : Window.split events interval = .ok ws) {orders : List (List Event)} (horders : Schedules ws orders) :
    SameBookings (order.map (action tasks)) (sessions tasks orders) := by
  have hjoined : Interleaves (fun unit => onUnit unit events) orders.flatten := fun unit =>
    (horders.interleaves unit).trans (Window.onUnit_flatMap_split hasc hws unit)
  exact (horder.sameBookings hjoined tasks).trans (sameBookings_sessions tasks orders).symm

variable {ε κ ν : Type} [DecidableEq κ] {A : Account ε κ ν} {units : Nat} {caps : Capacities}

theorem sum_figure_sample (h : A.Kept units) (orders : List (List Event)) (past : List Action)
    (hr : r.ledger = Account.after .leafThenParent units caps past)
    (hpast : past.takeWhile (!·.isReset) = [])
    (hroom : ((A.journal.entries [] ((sessions r.tasks orders).reverse ++ past)).map
      A.journal.key).eraseDups.length ≤ (A.capacity caps).toNat) (k : κ) :
    ((r.sample orders).1.map (A.figure · k)).sum =
      A.journal.total k (A.journal.entries past (sessions r.tasks orders).reverse) := by
  induction orders generalizing r past with
  | nil => rfl
  | cons order rest ih =>
    set told := order.map (action r.tasks)
    have hsplit : (sessions r.tasks (order :: rest)).reverse =
        (sessions r.tasks rest).reverse ++ (.reset :: told.reverse) := by
      simp [sessions, told]
    rw [hsplit, List.append_assoc, List.cons_append] at hroom
    -- the reading of this window
    have hfed : (r.tell order).ledger = Account.after .leafThenParent units caps (told.reverse ++ past) := by
      rw [Account.after_append, List.reverse_reverse, ← hr]
      rfl
    have hquiet : ∀ a ∈ told.reverse, a.isReset = false := fun a ha =>
      isReset_action r.tasks order a (List.mem_reverse.1 ha)
    have hread : A.figure (r.tell order).ledger k = A.journal.total k (A.journal.entries past told.reverse) := by
      rw [hfed, h.figure_of_room, A.journal.sinceReset_append hquiet hpast]
      refine Nat.le_trans (length_eraseDups_le (List.map_subset _ ?_)) hroom
      refine List.Subset.trans (A.journal.sinceReset_suffix _).subset (A.journal.entries_subset ?_)
      exact (List.suffix_cons .reset _).trans (List.suffix_append _ _)
    -- the readings of those after it
    have hrest := ih (r.tell order).reset (.reset :: (told.reverse ++ past))
      (by rw [← List.singleton_append, Account.after_append, ← hfed]; rfl) rfl hroom
    rw [sample, List.map_cons, List.sum_cons, hread, hrest, hsplit, A.journal.entries_append,
      A.journal.total_append]
    simp only [Journal.entries, A.journal.enter?_reset, Option.toList_none, List.append_nil,
      List.cons_append]
    rfl

theorem exists_prefix_of_mem_sample {orders : List (List Event)} {l : Ledger} (h : l ∈ (r.sample orders).1) :
    ∃ done, done <+: sessions r.tasks orders ∧ l = r.ledger.run .leafThenParent done := by
  induction orders generalizing r with
  | nil => cases h
  | cons told rest ih =>
    rcases List.mem_cons.1 h with rfl | h
    · exact ⟨_, List.prefix_append _ _, rfl⟩
    · obtain ⟨done, hdone, rfl⟩ := ih (r.tell told).reset h
      refine ⟨told.map (action r.tasks) ++ .reset :: done, ?_, ?_⟩
      · exact (List.prefix_append_right_inj _).2 ((List.prefix_cons_inj _).2 hdone)
      · rw [Ledger.run_append]; rfl

theorem eq_of_start {decls : List Declaration} {n : UInt64} {r : Replay} (h : start decls n caps = .ok r) :
    r = ⟨.new n.toNat caps, .ofDeclarations decls, n⟩ := by
  unfold start at h
  cases hc : caps.check with
  | error e =>
    simp only [hc] at h
    split at h
    · cases h
    · split at h <;> cases h
  | ok u =>
    simp only [hc] at h
    split at h
    · cases h
    · split at h
      · cases h
      · cases h; rfl

/-- The figures of the whole are the sums of those of the parts, modulo 2^64. -/
structure AddsUp (whole : Ledger) (parts : List Ledger) : Prop where
  cpu : ∀ pid, whole.timeOf pid = (parts.map (·.timeOf pid)).sum
  handoffs : ∀ pair, whole.handoffsOf pair = (parts.map (·.handoffsOf pair)).sum
  faults : ∀ pid, whole.faultsOf pid = (parts.map (·.faultsOf pid)).sum

theorem figure_tell_eq_sum (h : A.Kept units) {order : List Event} {orders : List (List Event)}
    (hr : r.ledger = .new units caps)
    (hperm : (A.journal.entries [] (order.map (action r.tasks)).reverse).Perm
      (A.journal.entries [] (sessions r.tasks orders).reverse))
    (hroom : A.journal.distinct (order.map (action r.tasks)) ≤ (A.capacity caps).toNat) (k : κ) :
    A.figure (r.tell order).ledger k = ((r.sample orders).1.map (A.figure · k)).sum := by
  set told := order.map (action r.tasks)
  have hquiet : ∀ a ∈ told.reverse, a.isReset = false := fun a ha =>
    isReset_action r.tasks order a (List.mem_reverse.1 ha)
  have hwhole : (r.tell order).ledger = Account.after .leafThenParent units caps told.reverse := by
    rw [Account.after_reverse, ← hr]
    rfl
  rw [Journal.distinct] at hroom
  rw [r.sum_figure_sample h orders [] hr rfl, hwhole, h.figure_of_room, A.journal.sinceReset_eq_entries hquiet,
    A.journal.total_perm hperm]
  · rwa [A.journal.sinceReset_eq_entries hquiet]
  · rwa [List.append_nil, ← (eraseDups_perm (hperm.map _)).length_eq]

/-- If one replay of all events refuses nothing, then the replay in intervals refuses nothing either, its
readings add up to the one of the whole, and both leave the slots alike. The order of the whole and that of each
window may be any that keeps the order of every unit, as the orders in which they are fed do. -/
theorem sample_addsUp {decls : List Declaration} {n : UInt64} {r : Replay}
    (hr : start decls n caps = .ok r) {events : List Event} (hasc : SwitchesAscend events)
    {interval : Span} (hpos : 0 < interval.nanos) {order : List Event}
    (horder : Interleaves (fun unit => onUnit unit events) order)
    (hroom : r.ledger.NeverRefuses .leafThenParent (order.map (action r.tasks))) :
    ∃ ws, Window.split events interval = .ok ws ∧ Schedules ws (ws.map fun w => byUnit w.events) ∧
      ∀ orders, Schedules ws orders →
        AddsUp (r.tell order).ledger (r.sample orders).1 ∧
        (∀ l ∈ (r.sample orders).1, l.Unrefused) ∧
        r.ledger.NeverRefuses .leafThenParent (sessions r.tasks orders) ∧
        ∀ unit, (r.tell order).ledger.slots.get? unit = (r.sample orders).2.ledger.slots.get? unit := by
  obtain ⟨ws, hws⟩ := Window.exists_split events hpos
  refine ⟨ws, hws, schedules_byUnit ws, fun orders horders => ?_⟩
  have hledger : r.ledger = .new n.toNat caps := by rw [eq_of_start hr]
  -- the windows book what the whole does, so there is room for them where there is room for it
  have hsame := sameBookings_split r.tasks hasc horder hws horders
  rw [hledger] at hroom
  have hfits := hasRoom_of_neverRefuses (isReset_action r.tasks order) hroom
  have hnever := (hsame.hasRoom hfits).neverRefuses .leafThenParent
  rw [← hledger] at hnever
  refine ⟨?_, ?_, hnever, ?_⟩
  · exact {
      cpu := fun pid => figure_tell_eq_sum r (Account.time_kept n.toNat) hledger (hsame.time_perm _)
        hfits.cpu pid
      handoffs := fun pair => by
        have h := figure_tell_eq_sum r (Account.handoffs_kept n.toNat) hledger hsame.handoffs_perm
          hfits.handoffs pair
        simpa only [Ledger.figure_handoffs] using h
      faults := fun pid => figure_tell_eq_sum r (Account.faults_kept n.toNat) hledger hsame.faults_perm
        hfits.faults pid }
  · intro l hl
    obtain ⟨done, hdone, rfl⟩ := r.exists_prefix_of_mem_sample hl
    exact hnever done ((List.mem_inits _ _).2 hdone)
  · intro unit
    have htold : (r.tell order).ledger =
        (Ledger.new n.toNat caps).run .leafThenParent (order.map (action r.tasks)) := by
      rw [← hledger]
      rfl
    rw [ledger_sample, htold, hledger]
    exact hsame.slots .leafThenParent n.toNat caps unit

/-- Task 5 runs on unit 0 over a boundary and task 7 on unit 1; in each window unit 1 is told before unit 0, and all
at once they are fed the other way round. -/
theorem sample_addsUp_over_two_windows :
    let events : List Event :=
      [.switch 0 100 0 5, .switch 1 110 0 7, .fault 1 7, .switch 0 250 5 7, .fault 0 7, .switch 1 255 7 0]
    let ws : List Window :=
      [⟨0, ⟨0⟩, [.switch 0 100 0 5, .switch 1 110 0 7, .fault 1 7]⟩,
        ⟨2, ⟨120⟩, [.switch 0 250 5 7, .fault 0 7, .switch 1 255 7 0]⟩]
    let orders : List (List Event) :=
      [[.switch 1 110 0 7, .fault 1 7, .switch 0 100 0 5], [.switch 1 255 7 0, .switch 0 250 5 7, .fault 0 7]]
    ∃ r, start [] 2 ⟨2, 1, 1⟩ = .ok r ∧ SwitchesAscend events ∧
      Interleaves (fun unit => onUnit unit events) (byUnit events) ∧
      r.ledger.NeverRefuses .leafThenParent ((byUnit events).map (action r.tasks)) ∧
      Window.split events ⟨60⟩ = .ok ws ∧ Schedules ws orders ∧
      AddsUp (r.feed events).2.ledger (r.sample orders).1 ∧
      (r.feed events).2.ledger.timeOf 5 = 150 ∧ (r.sample orders).1.map (·.timeOf 5) = [0, 150] ∧
      (r.feed events).2.ledger.timeOf 7 = 145 ∧ (r.sample orders).1.map (·.timeOf 7) = [0, 145] ∧
      (r.feed events).2.ledger.faultsOf 7 = 2 ∧ (r.sample orders).1.map (·.faultsOf 7) = [1, 1] := by
  intro events ws orders
  set r : Replay := ⟨.new 2 ⟨2, 1, 1⟩, .ofDeclarations [], 2⟩
  have hr : start [] 2 ⟨2, 1, 1⟩ = .ok r := rfl
  have hasc : SwitchesAscend events := by
    intro unit
    by_cases hzero : unit = 0
    · subst hzero; decide
    by_cases hone : unit = 1
    · subst hone; decide
    simp [events, timesOn, onUnit, Event.unit, Ne.symm hzero, Ne.symm hone]
  have hplaced : Window.placed (Window.origin events) (Span.mk 60).toWord events =
      [(0, .switch 0 100 0 5), (0, .switch 1 110 0 7), (0, .fault 1 7), (2, .switch 0 250 5 7), (2, .fault 0 7),
        (2, .switch 1 255 7 0)] := by decide
  have hws : Window.split events ⟨60⟩ = .ok ws := by
    simp only [Window.split, hplaced]
    simp [ws, groupByKey, List.mergeSort, List.MergeSort.Internal.splitInTwo, groupStep, Window.startOf, Span.toWord]
  have hfits : HasRoom 2 ⟨2, 1, 1⟩ (events.map (action r.tasks)) := ⟨by decide, by decide, by decide⟩
  have horder := (Interleaves.self events).byUnit
  have hnever := ((sameBookings_byUnit r.tasks events).symm.hasRoom hfits).neverRefuses .leafThenParent
  have horders : Schedules ws orders :=
    .cons (interleaves_of_mem (by decide)) (.cons (interleaves_of_mem (by decide)) .nil)
  obtain ⟨found, hfound, -, hall⟩ := sample_addsUp hr hasc (show 0 < (Span.mk 60).nanos by decide) horder hnever
  obtain rfl : ws = found := Except.ok.inj (hws.symm.trans hfound)
  obtain ⟨hsum, -⟩ := hall orders horders
  have hparts : (r.sample orders).1.map (·.timeOf 5) = [0, 150] ∧ (r.sample orders).1.map (·.timeOf 7) = [0, 145] ∧
      (r.sample orders).1.map (·.faultsOf 7) = [1, 1] := by decide
  obtain ⟨hfive, hseven, hfaults⟩ := hparts
  exact ⟨r, hr, hasc, horder, hnever, hws, horders, hsum, (hsum.cpu 5).trans (by rw [hfive]; rfl), hfive,
    (hsum.cpu 7).trans (by rw [hseven]; rfl), hseven, (hsum.faults 7).trans (by rw [hfaults]; rfl), hfaults⟩

end Replay
end SchedLedger
