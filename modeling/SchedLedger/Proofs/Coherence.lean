import SchedLedger.Proofs.Join
import SchedLedger.Proofs.Limits

/-! The sections of a report hang together. All of them are drawn from the rows that pass: the CPU section keeps
the order of the reading, the cost section is a selection, the focus is one of the rows, and a handoff that shows
has an end among them. -/

namespace SchedLedger

section Rows

variable {rows : List Row} {pid : Pid} {row : Row}

theorem Merged.nodup (h : Merged rows) : (rows.map (·.pid)).Nodup :=
  h.ascending.imp fun hlt => UInt32.ne_of_lt hlt

theorem Merged.filter (h : Merged rows) (p : Row → Bool) : Merged (rows.filter p) where
  ascending := h.ascending.sublist (List.filter_sublist.map _)
  real row hrow := h.real row (List.mem_filter.1 hrow).1

theorem rowOf?_eq_some_iff (h : Merged rows) : rowOf? rows pid = some row ↔ row ∈ rows ∧ row.pid = pid := by
  constructor
  · intro hfind
    exact ⟨List.mem_reverse.1 (List.mem_of_find?_eq_some hfind), by simpa using List.find?_some hfind⟩
  · rintro ⟨hrow, rfl⟩
    cases hfind : rowOf? rows row.pid with
    | none =>
      have hnone := List.find?_eq_none.1 hfind row (List.mem_reverse.2 hrow)
      simp at hnone
    | some other =>
      have hother : other ∈ rows := List.mem_reverse.1 (List.mem_of_find?_eq_some hfind)
      have hpid : other.pid = row.pid := by simpa using List.find?_some hfind
      rw [List.inj_on_of_nodup_map h.nodup hother hrow hpid]

theorem rowFor_mem (h : pid ∈ rows.map (·.pid)) : rowFor pid rows ∈ rows ∧ (rowFor pid rows).pid = pid := by
  unfold rowFor
  cases hfind : rows.find? (·.pid = pid) with
  | none =>
    obtain ⟨row, hrow, hpid⟩ := List.mem_map.1 h
    exact absurd hpid (by simpa using List.find?_eq_none.1 hfind row hrow)
  | some row => exact ⟨List.mem_of_find?_eq_some hfind, by simpa using List.find?_some hfind⟩

end Rows

namespace Reading

variable {e : Extent} {resident : List (Pid × UInt64)} {memory : UInt64} {r : Reading}

/-- The entries of a reading that can show in the CPU section. -/
def busy (r : Reading) : List CpuUsage :=
  r.cpu.filter fun u => u.pid ≠ 0 ∧ 0 < u.ns

theorem rowFor_busy (hcpu : (r.cpu.map (·.pid)).Nodup) (hfaults : (r.faults.map (·.pid)).Nodup) {u : CpuUsage}
    (hu : u ∈ r.busy) :
    rowFor u.pid (r.rows e resident memory) ∈ r.rows e resident memory ∧
      (rowFor u.pid (r.rows e resident memory)).pid = u.pid ∧
      (rowFor u.pid (r.rows e resident memory)).cpuNs = u.ns := by
  obtain ⟨hmem, hlisted⟩ := List.mem_filter.1 hu
  have hpid : u.pid ∈ (r.rows e resident memory).map (·.pid) :=
    mem_pids_rows.2 ⟨mem_pids_edits_iff.2 (.inl ⟨u, hmem, rfl⟩), (of_decide_eq_true hlisted).1⟩
  obtain ⟨hrow, hsame⟩ := rowFor_mem hpid
  refine ⟨hrow, hsame, ?_⟩
  rw [(shows_of_mem_rows hcpu hfaults hrow).1.cpuNs, hsame]
  exact sumOver_eq_of_mem hmem (by simp) (not_both_of_nodup hcpu u.pid)

theorem pos_iff_busy (hcpu : (r.cpu.map (·.pid)).Nodup) (hfaults : (r.faults.map (·.pid)).Nodup) {row : Row} :
    row ∈ r.rows e resident memory ∧ 0 < row.cpuNs ↔
      ∃ u ∈ r.busy, rowFor u.pid (r.rows e resident memory) = row := by
  constructor
  · rintro ⟨hrow, hpos⟩
    have hentry : ∃ u ∈ r.cpu, u.pid = row.pid := by
      by_contra hnone
      push Not at hnone
      have hzero : row.cpuNs = 0 := (shows_of_mem_rows hcpu hfaults hrow).1.cpuNs.trans
        (sumOver_eq_zero fun u hu => by simpa using hnone u hu)
      exact UInt64.lt_irrefl 0 (hzero ▸ hpos)
    obtain ⟨u, hu, hpid⟩ := hentry
    have hmerged := merged_rows e resident memory r
    have hns : row.cpuNs = u.ns := by
      rw [(shows_of_mem_rows hcpu hfaults hrow).1.cpuNs, ← hpid]
      exact sumOver_eq_of_mem hu (by simp) (not_both_of_nodup hcpu u.pid)
    refine ⟨u, List.mem_filter.2 ⟨hu, decide_eq_true ⟨?_, hns ▸ hpos⟩⟩, ?_⟩
    · rw [hpid]
      exact hmerged.real row hrow
    · rw [hpid]
      exact rowFor_of_mem hmerged hrow
  · rintro ⟨u, hu, rfl⟩
    have hns : (rowFor u.pid (r.rows e resident memory)).cpuNs = u.ns := (rowFor_busy hcpu hfaults hu).2.2
    exact ⟨(rowFor_busy hcpu hfaults hu).1, hns ▸ (of_decide_eq_true (List.mem_filter.1 hu).2).2⟩

theorem ranked_rows (hcpu : (r.cpu.map (·.pid)).Nodup) (hfaults : (r.faults.map (·.pid)).Nodup)
    (hranked : r.cpu.Pairwise fun u w => ranksBefore u.ns u.pid.toNat w.ns w.pid.toNat) (p : Row → Bool) :
    ranked Row.cpuNs (·.pid.toNat) ((r.rows e resident memory).filter p) =
      (r.busy.map fun u => rowFor u.pid (r.rows e resident memory)).filter p := by
  set all := r.rows e resident memory
  have hmerged : Merged all := merged_rows e resident memory r
  have hrow : ∀ u ∈ r.busy, rowFor u.pid all ∈ all ∧ (rowFor u.pid all).pid = u.pid ∧
      (rowFor u.pid all).cpuNs = u.ns := fun u hu => rowFor_busy hcpu hfaults hu
  have hleft : ((ranked Row.cpuNs (·.pid.toNat) (all.filter p)).map (·.pid)).Nodup :=
    nodup_ranked (hmerged.filter p).nodup
  have hright : (((r.busy.map fun u => rowFor u.pid all).filter p).map (·.pid)).Nodup := by
    refine List.Nodup.sublist (List.filter_sublist.map _) ?_
    have hpids : (r.busy.map fun u => rowFor u.pid all).map (·.pid) = r.busy.map (·.pid) := by
      rw [List.map_map]
      exact List.map_congr_left fun u hu => (hrow u hu).2.1
    rw [hpids]
    exact hcpu.sublist (List.filter_sublist.map _)
  -- both sides list the same rows by rank, and there is only one way to do so
  refine eq_of_perm_of_ranked Row.cpuNs (·.pid.toNat) ?_ ?_ (pairwise_ranked _ _ _) ?_
  · rw [List.perm_ext_iff_of_nodup hleft.of_map hright.of_map]
    intro row
    rw [ranked_perm.mem_iff, List.mem_filter, List.mem_filter, List.mem_filter, List.mem_map,
      ← pos_iff_busy hcpu hfaults, decide_eq_true_eq]
    exact and_right_comm
  · have hkeys := hleft.map fun a b => UInt32.toNat_inj.1
    rwa [List.map_map] at hkeys
  · refine List.Pairwise.sublist List.filter_sublist (List.pairwise_map.2 ?_)
    refine (hranked.sublist List.filter_sublist).imp_of_mem fun {u w} hu hw huw => ?_
    rw [(hrow u hu).2.1, (hrow u hu).2.2, (hrow w hw).2.1, (hrow w hw).2.2]
    exact huw

end Reading

section Choice

variable {choose : Option Row → Row → Option Row}

theorem foldl_chooses (hfirst : ∀ r, choose none r = some r)
    (hnext : ∀ b r, choose (some b) r = some b ∨ choose (some b) r = some r) (rows : List Row) :
    (rows.foldl choose none = none ↔ rows = []) ∧ ∀ r, rows.foldl choose none = some r → r ∈ rows := by
  induction rows using List.reverseRecOn with
  | nil => simp
  | append_singleton rows last ih =>
    rw [List.foldl_append, List.foldl_cons, List.foldl_nil]
    cases hbest : rows.foldl choose none with
    | none =>
      rw [hfirst]
      simp
    | some b =>
      have hb := ih.2 b hbest
      rcases hnext b last with h | h <;> rw [h] <;> simp [hb]

theorem foldl_bestBy_chooses (value : Row → Float) (rows : List Row) :
    (rows.foldl (bestBy value) none = none ↔ rows = []) ∧
      ∀ r, rows.foldl (bestBy value) none = some r → r ∈ rows :=
  foldl_chooses (fun _ => rfl) (fun _ _ => ite_eq_or_eq _ _ _) rows

theorem foldl_busier_chooses (rows : List Row) :
    (rows.foldl busier none = none ↔ rows = []) ∧ ∀ r, rows.foldl busier none = some r → r ∈ rows :=
  foldl_chooses (fun _ => rfl) (fun _ _ => (ite_eq_or_eq _ _ _).symm) rows

theorem focusRow_mem {rows : List Row} {r : Row} (h : focusRow rows = some r) : r ∈ rows := by
  unfold focusRow at h
  split at h
  · next b hb =>
    have hmem := (foldl_bestBy_chooses Row.score _).2 b hb
    rw [← Option.some.inj h]
    exact (List.mem_filter.1 hmem).1
  · exact (foldl_busier_chooses rows).2 r h

theorem focusRow_eq_none_iff {rows : List Row} : focusRow rows = none ↔ rows = [] := by
  unfold focusRow
  split
  · next b hb =>
    have hmem := (List.mem_filter.1 ((foldl_bestBy_chooses Row.score _).2 b hb)).1
    exact ⟨fun h => (nomatch h), fun h => by simp [h] at hmem⟩
  · exact (foldl_busier_chooses rows).1

end Choice

section Selection

theorem costSection_perm (rows : List Row) :
    (costSection 0 rows).Perm (rows.filter fun r => r.faults > 0 || r.cpuMs > 0.0) :=
  List.mergeSort_perm _ _

/-- The cost section takes rows, each at most as often as it is there. -/
theorem costSection_subperm (limit : UInt64) (rows : List Row) : (costSection limit rows).Subperm rows :=
  (sublist_keepFirst limit _).subperm.trans
    ((costSection_perm rows).subperm.trans List.filter_sublist.subperm)

end Selection

namespace Filter

variable {f : Filter} {rows : List Row} {c : HandoffCount}

theorem passesHandoff_iff (h : Merged rows) :
    f.passesHandoff (rowOf? rows) c = true ↔
      ∃ v ∈ rows, v.pid = c.victim ∧ ∃ a ∈ rows, a.pid = c.aggressor ∧
        f.hides v = false ∧ f.hides a = false ∧ (f.matchesGroup v.group = true ∨ f.matchesGroup a.group = true) := by
  have hparts : f.passesHandoff (rowOf? rows) c = true ↔
      ∃ v a, rowOf? rows c.victim = some v ∧ rowOf? rows c.aggressor = some a ∧
        f.hides v = false ∧ f.hides a = false ∧ (f.matchesGroup v.group = true ∨ f.matchesGroup a.group = true) := by
    unfold passesHandoff
    cases rowOf? rows c.victim <;> cases rowOf? rows c.aggressor <;> simp [and_assoc]
  rw [hparts]
  simp only [rowOf?_eq_some_iff h]
  constructor
  · rintro ⟨v, a, ⟨hv, hvictim⟩, ⟨ha, haggressor⟩, hrest⟩
    exact ⟨v, hv, hvictim, a, ha, haggressor, hrest⟩
  · rintro ⟨v, hv, hvictim, a, ha, haggressor, hrest⟩
    exact ⟨v, a, ⟨hv, hvictim⟩, ⟨ha, haggressor⟩, hrest⟩

theorem passes_iff {row : Row} : f.passes row = true ↔ f.hides row = false ∧ f.matchesGroup row.group = true := by
  simp [passes]

theorem exists_end_of_passesHandoff (h : Merged rows) (hc : f.passesHandoff (rowOf? rows) c = true) :
    ∃ row ∈ rows.filter f.passes, row.pid = c.victim ∨ row.pid = c.aggressor := by
  obtain ⟨v, hv, hvictim, a, ha, haggressor, hshown, hshown', hmatch | hmatch⟩ := (passesHandoff_iff h).1 hc
  · exact ⟨v, List.mem_filter.2 ⟨hv, passes_iff.2 ⟨hshown, hmatch⟩⟩, .inl hvictim⟩
  · exact ⟨a, List.mem_filter.2 ⟨ha, passes_iff.2 ⟨hshown', hmatch⟩⟩, .inr haggressor⟩

theorem both_ends_of_passesHandoff (h : Merged rows) (hgroup : f.group = none)
    (hc : f.passesHandoff (rowOf? rows) c = true) :
    (∃ row ∈ rows.filter f.passes, row.pid = c.victim) ∧ ∃ row ∈ rows.filter f.passes, row.pid = c.aggressor := by
  obtain ⟨v, hv, hvictim, a, ha, haggressor, hshown, hshown', -⟩ := (passesHandoff_iff h).1 hc
  have hall : ∀ group, f.matchesGroup group = true := fun group => by rw [matchesGroup, hgroup]
  exact ⟨⟨v, List.mem_filter.2 ⟨hv, passes_iff.2 ⟨hshown, hall v.group⟩⟩, hvictim⟩,
    a, List.mem_filter.2 ⟨ha, passes_iff.2 ⟨hshown', hall a.group⟩⟩, haggressor⟩

end Filter

/-- How the sections of a report hang together. `all` are the rows of the reading before any are filtered out, and
a section shows `k` of them. -/
structure Report.Coherent (report : Report) (reading : Reading) (all : List Row) (f : Filter) (k : Nat) : Prop where
  ascending : (report.rows.map (·.pid)).Pairwise (· < ·)
  mem_rows : ∀ row, row ∈ report.rows ↔ row ∈ all ∧ f.passes row = true
  cpu : report.cpu = ((reading.busy.map fun u => rowFor u.pid all).filter f.passes).take k
  cpu_subset : ∀ row ∈ report.cpu, row ∈ report.rows
  cost_subperm : report.cpuCost.Subperm report.rows
  cost_nodup : (report.cpuCost.map (·.pid)).Nodup
  cost_length : report.cpuCost.length ≤ 2 * k
  focus_none : report.focus = none ↔ report.rows = []
  focus_some : ∀ x, report.focus = some x →
    ∃ row ∈ report.rows, x.pid = row.pid ∧ x.comm = row.comm ∧ x.finding = row.finding
  handoffs : report.handoffs = (reading.handoffs.filter (f.passesHandoff (rowOf? all))).take k
  one_end : ∀ c ∈ report.handoffs, ∃ row ∈ report.rows, row.pid = c.victim ∨ row.pid = c.aggressor
  both_ends : f.group = none → ∀ c ∈ report.handoffs,
    (∃ row ∈ report.rows, row.pid = c.victim) ∧ ∃ row ∈ report.rows, row.pid = c.aggressor

/-- The sections of a report on a ranked reading cohere. -/
theorem sections_cohere (reading : Reading) (e : Extent) (resident : List (Pid × UInt64)) (memory : UInt64)
    (s : ReportSettings) (hcpu : (reading.cpu.map (·.pid)).Nodup) (hfaults : (reading.faults.map (·.pid)).Nodup)
    (hranked : reading.cpu.Pairwise fun u w => ranksBefore u.ns u.pid.toNat w.ns w.pid.toNat)
    (hfits : 2 * s.topK.toNat < 2 ^ 64) :
    ∃ report, Report.build reading e resident memory s = .ok report ∧ report.topK.toNat = max s.topK.toNat 1 ∧
      report.Coherent reading (reading.rows e resident memory) s.filter (max s.topK.toNat 1) := by
  have hcosts : 2 * max s.topK.toNat 1 < 2 ^ 64 := by omega
  refine ⟨_, Report.build_eq_ok_iff.2 ⟨hcosts, rfl⟩, s.toNat_limit, ?_⟩
  set report := Report.upTo (.ofNat (2 * max s.topK.toNat 1)) reading e resident memory s
  set all := reading.rows e resident memory with hall
  set k := max s.topK.toNat 1
  have hk : 1 ≤ k := Nat.le_max_right _ _
  have hmerged : Merged all := Reading.merged_rows e resident memory reading
  have hrows : report.rows = all.filter s.filter.passes := rfl
  -- ranking the rows anew leaves them where their entries stand in the reading
  have hcpuSection : report.cpu = ((reading.busy.map fun u => rowFor u.pid all).filter s.filter.passes).take k := by
    rw [← Reading.ranked_rows hcpu hfaults hranked]
    exact keepFirst_eq_take_of_toNat s.toNat_limit hk _
  have hcost : report.cpuCost.Subperm report.rows := costSection_subperm _ _
  have hhandoffs : report.handoffs = (reading.handoffs.filter (s.filter.passesHandoff (rowOf? all))).take k :=
    keepFirst_eq_take_of_toNat s.toNat_limit hk _
  have hshown : ∀ c ∈ report.handoffs, s.filter.passesHandoff (rowOf? all) c = true := by
    intro c hc
    rw [hhandoffs] at hc
    exact (List.mem_filter.1 (List.mem_of_mem_take hc)).2
  refine ⟨(hmerged.filter _).ascending, fun row => List.mem_filter, hcpuSection, ?_, hcost, ?_, ?_, ?_, ?_, hhandoffs,
    fun c hc => Filter.exists_end_of_passesHandoff hmerged (hshown c hc),
    fun hgroup c hc => Filter.both_ends_of_passesHandoff hmerged hgroup (hshown c hc)⟩
  · intro row hrow
    have hmem := (sublist_keepFirst s.limit _).subset (show row ∈ cpuSection s.limit report.rows from hrow)
    exact (List.mem_filter.1 (ranked_perm.mem_iff.1 hmem)).1
  · obtain ⟨rows, hperm, hsub⟩ := hcost
    exact (hperm.map (·.pid)).nodup_iff.1 ((hmerged.filter _).nodup.sublist (hsub.map _))
  · have hlength := congrArg List.length
      (keepFirst_eq_take_of_toNat (UInt64.toNat_ofNat_of_lt' hcosts) (by omega) (costSection 0 report.rows))
    refine (le_of_eq hlength).trans ?_
    rw [List.length_take]
    exact Nat.min_le_left _ _
  · rw [← focusRow_eq_none_iff]
    exact Option.map_eq_none_iff
  · intro x hx
    obtain ⟨row, hrow, rfl⟩ := Option.map_eq_some_iff.1 hx
    exact ⟨row, focusRow_mem hrow, rfl, rfl, rfl⟩

/-- A reading with the idle task, a kernel thread and an entry without time, in which some handoffs lead to
processes that have no row or do not show. -/
def crossing : Reading where
  cpu := [⟨0, "idle", "", 9⟩, ⟨5, "rcu", "app", 8⟩, ⟨4, "web", "app", 7⟩, ⟨2, "db", "data", 6⟩, ⟨3, "off", "app", 0⟩]
  faults := [⟨2, "", "data", 1, 0⟩]
  handoffs := [⟨4, "", 5, "", 9⟩, ⟨4, "", 0, "", 8⟩, ⟨2, "", 4, "", 7⟩, ⟨3, "", 4, "", 6⟩]
  usage := []

/-- Kernel threads are hidden, a group has to contain a text, and no more than one row shows in a section. -/
def crossing.settings : ReportSettings :=
  ⟨0, true, some " APP", none⟩

theorem sections_cohere_of_crossing :
    (crossing.cpu.map (·.pid)).Nodup ∧ (crossing.faults.map (·.pid)).Nodup ∧
      (crossing.cpu.Pairwise fun u w => ranksBefore u.ns u.pid.toNat w.ns w.pid.toNat) ∧
      2 * crossing.settings.topK.toNat < 2 ^ 64 ∧
      ∃ report, Report.build crossing ⟨⟨100⟩, 1⟩ [] 1 crossing.settings = .ok report ∧
        report.cpu.map (·.pid) = [4] ∧ report.cpuCost.length ≤ 2 ∧ report.handoffs = [⟨2, "", 4, "", 7⟩] ∧
        ∃ row ∈ report.rows, row.pid = 2 ∨ row.pid = 4 := by
  have hcpu : (crossing.cpu.map (·.pid)).Nodup := by decide
  have hfaults : (crossing.faults.map (·.pid)).Nodup := by decide
  have hranked : crossing.cpu.Pairwise fun u w => ranksBefore u.ns u.pid.toNat w.ns w.pid.toNat := by decide
  have hfits : 2 * crossing.settings.topK.toNat < 2 ^ 64 := by decide
  obtain ⟨report, hreport, -, hcoherent⟩ :=
    sections_cohere crossing ⟨⟨100⟩, 1⟩ [] 1 crossing.settings hcpu hfaults hranked hfits
  have hcpuSection : report.cpu.map (·.pid) = [4] := by
    rw [hcoherent.cpu]
    decide +kernel
  have hhandoffs : report.handoffs = [⟨2, "", 4, "", 7⟩] := hcoherent.handoffs.trans (by decide +kernel)
  have hmem : ⟨2, "", 4, "", 7⟩ ∈ report.handoffs := by
    rw [hhandoffs]
    exact List.mem_singleton_self _
  exact ⟨hcpu, hfaults, hranked, hfits, report, hreport, hcpuSection, hcoherent.cost_length, hhandoffs,
    hcoherent.one_end _ hmem⟩

end SchedLedger
