import SchedLedger.Proofs.Figures
import SchedLedger.Proofs.Records

/-! The CPU section of a report. A reading takes the first entries, three times as many as a section shows, and
only then the filter hides some of them. So the section holds the first of those entries that pass, and falls
short if too many hidden ones stand before others that pass. -/

namespace SchedLedger

def CpuUsage.busy (u : CpuUsage) : Pid × String × UInt64 :=
  (u.pid, u.comm, u.ns)

def Row.busy (row : Row) : Pid × String × UInt64 :=
  (row.pid, row.comm, row.cpuNs)

/-- Whether an entry passes by the name and the group that were recorded. -/
def CpuUsage.passes (f : Filter) (u : CpuUsage) : Bool :=
  f.passes { pid := u.pid, comm := u.comm, group := u.group }

theorem Row.Tells.busy {u : CpuUsage} {row : Row} (h : row.Tells u) (hpid : u.pid = row.pid) :
    row.busy = u.busy := by
  rw [Row.busy, CpuUsage.busy, h.comm, h.ns, hpid]

theorem Row.Tells.passes {u : CpuUsage} {row : Row} {f : Filter} (h : row.Tells u) (hpid : u.pid = row.pid)
    (hgroup : f.group = none ∨ u.group ≠ "") : f.passes row = u.passes f := by
  have hhides : f.hides row = f.hides { pid := u.pid, comm := u.comm, group := u.group } := by
    simp only [Filter.hides, Filter.isKernel, h.comm, hpid]
  have hmatches : f.matchesGroup row.group = f.matchesGroup u.group := by
    rcases hgroup with hnone | htext
    · simp only [Filter.matchesGroup, hnone]
    · rw [h.group htext]
  rw [CpuUsage.passes, Filter.passes, Filter.passes, hhides, hmatches]

/-- Entries as a ranking has them: of real processes, none twice, each with time, and by rank. -/
structure Ranking (us : List CpuUsage) : Prop where
  distinct : (us.map (·.pid)).Nodup
  real : ∀ u ∈ us, u.pid ≠ 0
  pos : ∀ u ∈ us, 0 < u.ns
  ranked : us.Pairwise fun u w => ranksBefore u.ns u.pid.toNat w.ns w.pid.toNat

theorem Ranking.sublist {us ws : List CpuUsage} (h : Ranking us) (hsub : ws.Sublist us) : Ranking ws where
  distinct := h.distinct.sublist (hsub.map _)
  real u hu := h.real u (hsub.subset hu)
  pos u hu := h.pos u (hsub.subset hu)
  ranked := h.ranked.sublist hsub

/-- What a ranking has of the record of an entity. -/
def CpuRecord.usage (v : CpuRecord) (pid : Pid) : CpuUsage :=
  ⟨pid, v.comm.lossy, v.group.lossy, v.ns⟩

namespace Ledger

variable {l : Ledger}

theorem mem_cpuRanking_iff (h : l.Distinct) (u : CpuUsage) :
    u ∈ l.cpuRanking 0 ↔ ∃ v, l.cpu.get? u.pid = some v ∧ 0 < v.ns ∧ u = v.usage u.pid := by
  have hentries : u ∈ l.cpuRanking 0 ↔ ∃ e ∈ l.cpu.entries, 0 < e.2.ns ∧ e.2.usage e.1 = u := by
    simp only [cpuRanking, keepFirst, if_true, List.mem_map, ranked_perm.mem_iff, List.mem_filter,
      decide_eq_true_eq, and_assoc]
    rfl
  rw [hentries]
  constructor
  · rintro ⟨⟨pid, v⟩, he, hpos, rfl⟩
    exact ⟨v, Table.get?_of_mem_entries h.cpu he, hpos, rfl⟩
  · rintro ⟨v, hv, hpos, hu⟩
    exact ⟨(u.pid, v), Table.mem_entries_of_get? hv, hpos, hu.symm⟩

theorem Grouped.group_ne_empty (hgrouped : l.Grouped) (hdistinct : l.Distinct) :
    ∀ u ∈ l.cpuRanking 0, u.group ≠ "" := by
  intro u hu
  obtain ⟨v, hv, -, husage⟩ := (mem_cpuRanking_iff hdistinct u).1 hu
  rw [husage]
  exact Padded.lossy_ne_empty (hgrouped.cpu u.pid v hv)

theorem ranking_run (r : Resolver) (units : Nat) (caps : Capacities) (actions : List Action) :
    Ranking (((Ledger.new units caps).run r actions).cpuRanking 0) where
  distinct := nodup_cpuRanking (distinct_run r units caps actions)
  real u hu := by
    obtain ⟨v, hv, -⟩ := (mem_cpuRanking_iff (distinct_run r units caps actions) u).1 hu
    exact ne_zero_of_run r units caps actions u.pid v hv
  pos _ hu := pos_of_mem_cpuRanking hu
  ranked := List.pairwise_map.2 (pairwise_ranked (fun e : Pid × CpuRecord => e.2.ns) (fun e => e.1.toNat) _)

end Ledger

namespace Reading

variable (e : Extent) (resident : List (Pid × UInt64)) (memory : UInt64) {r : Reading} {f : Filter}

/-- The rows with time that pass are those of the entries that pass. -/
theorem mem_busy_iff (h : Ranking r.cpu) (hfaults : (r.faults.map (·.pid)).Nodup)
    (hnamed : ∀ u ∈ r.cpu, u.comm ≠ "") (hgrouped : f.group = none ∨ ∀ u ∈ r.cpu, u.group ≠ "")
    (t : Pid × String × UInt64) :
    (∃ row ∈ r.rows e resident memory, (0 < row.cpuNs ∧ f.passes row = true) ∧ row.busy = t) ↔
      ∃ u ∈ r.cpu, u.passes f = true ∧ u.busy = t := by
  have htells : ∀ row ∈ r.rows e resident memory, ∀ u ∈ r.cpu, u.pid = row.pid →
      row.Tells u ∧ row.busy = u.busy ∧ f.passes row = u.passes f := by
    intro row hrow u hu hpid
    have htold := tells_of_mem_rows h.distinct hrow hu hpid (hnamed u hu)
    exact ⟨htold, htold.busy hpid, htold.passes hpid (hgrouped.imp_right fun hall => hall u hu)⟩
  constructor
  · rintro ⟨row, hrow, ⟨hpos, hpasses⟩, rfl⟩
    -- time in a row can only come from an entry
    have hentry : ∃ u ∈ r.cpu, u.pid = row.pid := by
      by_contra hnone
      push Not at hnone
      have hzero : row.cpuNs = 0 := (shows_of_mem_rows h.distinct hfaults hrow).1.cpuNs.trans
        (sumOver_eq_zero fun u hu => by simpa using hnone u hu)
      rw [hzero] at hpos
      exact UInt64.lt_irrefl 0 hpos
    obtain ⟨u, hu, hpid⟩ := hentry
    obtain ⟨-, hbusy, hsame⟩ := htells row hrow u hu hpid
    exact ⟨u, hu, hsame ▸ hpasses, hbusy.symm⟩
  · rintro ⟨u, hu, hpasses, rfl⟩
    have hmem : u.pid ∈ (r.rows e resident memory).map (·.pid) := by
      rw [mem_pids_rows, map_pid_edits]
      exact ⟨List.mem_append_left _ (List.mem_append_left _ (List.mem_map_of_mem hu)), h.real u hu⟩
    obtain ⟨row, hrow, hpid⟩ := List.mem_map.1 hmem
    obtain ⟨htold, hbusy, hsame⟩ := htells row hrow u hu hpid.symm
    exact ⟨row, hrow, ⟨htold.ns ▸ h.pos u hu, hsame.trans hpasses⟩, hbusy⟩

theorem nodup_pids_rows : ((r.rows e resident memory).map (·.pid)).Nodup := by
  have hcounts : ((r.counts e).map (·.pid)).Nodup :=
    (merged_counts e r).ascending.imp fun hlt => UInt32.ne_of_lt hlt
  rw [rows, List.map_map]
  exact hcounts

theorem busy_ranked (h : Ranking r.cpu) (hfaults : (r.faults.map (·.pid)).Nodup)
    (hnamed : ∀ u ∈ r.cpu, u.comm ≠ "") (hgrouped : f.group = none ∨ ∀ u ∈ r.cpu, u.group ≠ "") :
    (ranked Row.cpuNs (·.pid.toNat) ((r.rows e resident memory).filter f.passes)).map Row.busy =
      (r.cpu.filter (·.passes f)).map CpuUsage.busy := by
  set rows := (r.rows e resident memory).filter f.passes
  have hrows : ((ranked Row.cpuNs (·.pid.toNat) rows).map (·.pid)).Nodup :=
    nodup_ranked ((nodup_pids_rows e resident memory).sublist (List.filter_sublist.map _))
  have hentries : Ranking (r.cpu.filter (·.passes f)) := h.sublist List.filter_sublist
  have hperm : ((ranked Row.cpuNs (·.pid.toNat) rows).map Row.busy).Perm
      ((r.cpu.filter (·.passes f)).map CpuUsage.busy) := by
    have hleft : ((ranked Row.cpuNs (·.pid.toNat) rows).map Row.busy).Nodup :=
      List.Nodup.of_map Prod.fst (by rw [List.map_map]; exact hrows)
    have hright : ((r.cpu.filter (·.passes f)).map CpuUsage.busy).Nodup :=
      List.Nodup.of_map Prod.fst (by rw [List.map_map]; exact hentries.distinct)
    rw [List.perm_ext_iff_of_nodup hleft hright]
    intro t
    have hmem := mem_busy_iff e resident memory h hfaults hnamed hgrouped t
    simpa [rows, ranked_perm.mem_iff, and_assoc] using hmem
  -- times and processes of the same entries, by rank on both sides
  refine eq_of_perm_of_ranked (·.2.2) (·.1.toNat) hperm ?_ ?_ ?_
  · rw [List.map_map]
    have hkeys := hrows.map fun a b => UInt32.toNat_inj.1
    rwa [List.map_map] at hkeys
  · exact List.pairwise_map.2 (pairwise_ranked Row.cpuNs (·.pid.toNat) rows)
  · exact List.pairwise_map.2 hentries.ranked

end Reading

/-- Short of what was cut off, nothing is missing; if something was, the part that was kept must suffice. -/
theorem length_take_eq_iff {α : Type} (k : Nat) (kept cut : List α) :
    (kept.take k).length = min k (kept ++ cut).length ↔ k ≤ kept.length ∨ cut = [] := by
  rw [List.length_take, List.length_append, ← List.length_eq_zero_iff]
  omega

theorem take_eq_iff {α : Type} (k : Nat) (kept cut : List α) :
    kept.take k = (kept ++ cut).take k ↔ k ≤ kept.length ∨ cut = [] := by
  constructor
  · intro h
    have hlength := congrArg List.length h
    rw [List.length_take (l := kept ++ cut)] at hlength
    exact (length_take_eq_iff k kept cut).1 hlength
  · rintro (hk | rfl)
    · exact (List.take_append_of_le_length hk).symm
    · rw [List.append_nil]

section Report

variable {l : Ledger} {window : Span} {name : Pid → String} {e : Extent} {resident : List (Pid × UInt64)}
  {memory : UInt64} {s : ReportSettings} {reading : Reading} {report : Report}

theorem Report.busy_cpu (hdistinct : l.Distinct) (h : Ranking (l.cpuRanking 0)) (hk : 1 ≤ s.topK.toNat)
    (hread : Reading.ofLedger l s.topK window name = .ok reading)
    (hreport : Report.build reading e resident memory s = .ok report) (hnamed : ∀ u ∈ l.cpuRanking 0, u.comm ≠ "")
    (hgrouped : s.filter.group = none ∨ ∀ u ∈ l.cpuRanking 0, u.group ≠ "") :
    report.cpu.map Row.busy =
      ((((l.cpuRanking 0).take (3 * s.topK.toNat)).filter (·.passes s.filter)).take s.topK.toNat).map
        CpuUsage.busy := by
  have hmax : max s.topK.toNat 1 = s.topK.toNat := Nat.max_eq_left hk
  obtain ⟨-, rfl⟩ := Reading.ofLedger_eq_ok_iff.1 hread
  obtain ⟨-, rfl⟩ := Report.build_eq_ok_iff.1 hreport
  rw [hmax]
  set reading := Reading.front l s.topK.toNat window name
  have hsub : reading.cpu.Sublist (l.cpuRanking 0) := List.take_sublist _ _
  have hranked : (ranked Row.cpuNs (·.pid.toNat)
      ((reading.rows e resident memory).filter s.filter.passes)).map Row.busy =
        (reading.cpu.filter (·.passes s.filter)).map CpuUsage.busy :=
    Reading.busy_ranked e resident memory (h.sublist hsub) (Reading.nodup_front _ window name hdistinct).2
      (fun u hu => hnamed u (hsub.subset hu)) (hgrouped.imp_right fun hall u hu => hall u (hsub.subset hu))
  have hsection := keepFirst_eq_take_of_toNat (s.toNat_limit.trans hmax) hk
    (ranked Row.cpuNs (·.pid.toNat) ((reading.rows e resident memory).filter s.filter.passes))
  rw [Report.upTo, cpuSection, hsection, List.map_take, hranked, ← List.map_take]
  rfl

end Report

/-- The CPU section holds the first entries that pass of those read, three times as many as it shows. They are
the first of all entries that pass, and as many, just if enough of those read pass or none beyond them does. -/
theorem section_of_report (r : Resolver) (units : Nat) (caps : Capacities) (actions : List Action)
    (window : Span) (name : Pid → String) (e : Extent) (resident : List (Pid × UInt64)) (memory : UInt64)
    (s : ReportSettings) (hk : 1 ≤ s.topK) (hfits : 4 * s.topK.toNat < 2 ^ 64) :
    let l := (Ledger.new units caps).run r actions
    let k := s.topK.toNat
    let busiest := l.cpuRanking 0
    let wanted := busiest.filter (·.passes s.filter)
    let found := (busiest.take (3 * k)).filter (·.passes s.filter)
    let missed := (busiest.drop (3 * k)).filter (·.passes s.filter)
    ∃ reading report, Reading.ofLedger l s.topK window name = .ok reading ∧
      Report.build reading e resident memory s = .ok report ∧
      Ranking busiest ∧
      (∀ u, u ∈ busiest ↔ ∃ v, l.cpu.get? u.pid = some v ∧ 0 < v.ns ∧ u = v.usage u.pid) ∧
      ((∀ u ∈ busiest, u.comm ≠ "") → (s.filter.group = none ∨ ∀ u ∈ busiest, u.group ≠ "") →
        report.cpu.map Row.busy = (found.take k).map CpuUsage.busy ∧
        (report.cpu.length = min k wanted.length ↔ k ≤ found.length ∨ missed = []) ∧
        (report.cpu.map Row.busy = (wanted.take k).map CpuUsage.busy ↔ k ≤ found.length ∨ missed = [])) := by
  intro l k busiest wanted found missed
  have hk : 1 ≤ k := UInt64.le_iff_toNat_le.1 hk
  have hlimits : 4 * max k 1 < 2 ^ 64 ∧ 2 * max k 1 < 2 ^ 64 := by omega
  obtain ⟨reading, report, hread, hreport⟩ := Report.exists_report_iff.2 hlimits
  refine ⟨reading, report, hread, hreport, ?_⟩
  have hdistinct : l.Distinct := Ledger.distinct_run r units caps actions
  have hranking : Ranking busiest := Ledger.ranking_run r units caps actions
  refine ⟨hranking, Ledger.mem_cpuRanking_iff hdistinct, fun hnamed hgrouped => ?_⟩
  have hshown := Report.busy_cpu hdistinct hranking hk hread hreport hnamed hgrouped
  have hwanted : wanted = found ++ missed := by
    rw [← List.filter_append, List.take_append_drop]
  have hlength := congrArg List.length hshown
  rw [List.length_map, List.length_map] at hlength
  refine ⟨hshown, ?_, ?_⟩
  · rw [hlength, hwanted]
    exact length_take_eq_iff k found missed
  · rw [hshown, hwanted, List.map_take, List.map_take, List.map_append, take_eq_iff, List.length_map,
      List.map_eq_nil_iff]

/-- Three kernel threads and, with the least time, one process. -/
def crowdedOut : Ledger :=
  let tasks : TaskTable := .ofDeclarations [⟨1, "rcu", some ["k"], none⟩, ⟨2, "rcu", some ["k"], none⟩,
    ⟨3, "rcu", some ["k"], none⟩, ⟨4, "app", some ["a"], none⟩]
  let events : List Event :=
    [.switch 0 0 0 1, .switch 0 4 1 2, .switch 0 7 2 3, .switch 0 9 3 4, .switch 0 10 4 0]
  (Ledger.new 1 ⟨8, 8, 8⟩).run .leafThenParent (events.map (Replay.action tasks))

namespace crowdedOut

def settings (topK : UInt64) : ReportSettings :=
  ⟨topK, true, some "A", none⟩

def reading (topK : UInt64) : Except Failure Reading :=
  Reading.ofLedger crowdedOut topK ⟨10⟩ fun _ => ""

def report (topK : UInt64) (reading : Reading) : Except Failure Report :=
  Report.build reading ⟨⟨10⟩, 1⟩ [] 1 (settings topK)

def wanted : List CpuUsage :=
  (crowdedOut.cpuRanking 0).filter (·.passes (settings 1).filter)

theorem cpuRanking_eq :
    crowdedOut.cpuRanking 0 =
      [⟨1, "rcu", "k", 4⟩, ⟨2, "rcu", "k", 3⟩, ⟨3, "rcu", "k", 2⟩, ⟨4, "app", "a", 1⟩] := by
  have hentries : crowdedOut.cpu.entries =
      [(1, ⟨4, .ofBytes [0x72, 0x63, 0x75], .ofBytes [0x6B]⟩),
        (2, ⟨3, .ofBytes [0x72, 0x63, 0x75], .ofBytes [0x6B]⟩),
        (3, ⟨2, .ofBytes [0x72, 0x63, 0x75], .ofBytes [0x6B]⟩),
        (4, ⟨1, .ofBytes [0x61, 0x70, 0x70], .ofBytes [0x61]⟩)] := rfl
  have hranked : ranked (·.2.ns) (·.1.toNat) crowdedOut.cpu.entries = crowdedOut.cpu.entries :=
    ranked_eq_self (by decide) (by decide)
  rw [Ledger.cpuRanking, hranked, hentries]
  simp [keepFirst, Padded.lossy, Padded.content_ofBytes, beforeNul, Text.Utf8.lossy, Text.Utf8.pieces,
    Text.Utf8.next, Text.Utf8.lead?, Text.Utf8.follow]

theorem wanted_eq : wanted = [⟨4, "app", "a", 1⟩] := by
  rw [wanted, cpuRanking_eq]
  decide

theorem named : ∀ u ∈ crowdedOut.cpuRanking 0, u.comm ≠ "" := by
  rw [cpuRanking_eq]
  decide

theorem grouped : ∀ u ∈ crowdedOut.cpuRanking 0, u.group ≠ "" :=
  Ledger.Grouped.group_ne_empty ((Ledger.Grouped.new 1 ⟨8, 8, 8⟩).run Resolver.neverEmpty_leafThenParent _)
    (Ledger.distinct_run _ _ _ _)

/-- One row is asked for and one entry passes, but the section is empty. -/
theorem section_lacks_row :
    ∃ read made, reading 1 = .ok read ∧ report 1 read = .ok made ∧ made.cpu.length = 0 ∧ min 1 wanted.length = 1 := by
  obtain ⟨read, made, hread, hmade⟩ : ∃ read made, reading 1 = .ok read ∧ report 1 read = .ok made :=
    Report.exists_report_iff.2 (by decide)
  refine ⟨read, made, hread, hmade, ?_, by rw [wanted_eq]; rfl⟩
  have hshown := Report.busy_cpu (l := crowdedOut) (s := settings 1) (Ledger.distinct_run _ _ _ _)
    (Ledger.ranking_run _ _ _ _) (by decide) hread hmade named (.inr grouped)
  rw [cpuRanking_eq] at hshown
  exact List.length_eq_zero_iff.2 (List.map_eq_nil_iff.1 (hshown.trans (by decide)))

/-- With two rows asked for, all four entries are read, and the one that passes shows. -/
theorem section_has_row :
    ∃ read made, reading 2 = .ok read ∧ report 2 read = .ok made ∧
      made.cpu.map Row.busy = [(4, "app", 1)] ∧ made.cpu.length = 1 := by
  obtain ⟨read, made, hread, hmade, -, -, hsection⟩ := section_of_report .leafThenParent 1 ⟨8, 8, 8⟩ _ ⟨10⟩
    (fun _ => "") ⟨⟨10⟩, 1⟩ [] 1 (settings 2) (by decide) (by decide)
  obtain ⟨-, hlength, hshown⟩ := hsection named (.inr grouped)
  have hmissed : ((crowdedOut.cpuRanking 0).drop 6).filter (·.passes (settings 2).filter) = [] := by
    rw [cpuRanking_eq]
    rfl
  have hall : made.cpu.map Row.busy = (wanted.take 2).map CpuUsage.busy := hshown.2 (.inr hmissed)
  have hcount : made.cpu.length = min 2 wanted.length := hlength.2 (.inr hmissed)
  rw [wanted_eq] at hall hcount
  exact ⟨read, made, hread, hmade, hall, hcount⟩

end crowdedOut

end SchedLedger
