import SchedLedger.Proofs.Limits
import SchedLedger.Proofs.Room
import SchedLedger.Proofs.Rows
import SchedLedger.Replay.Run

/-! The figures of a report. A reading takes only the first entries of each ranking, so the row of a process
lacks whatever stands further down. Its figures are those of the ledger exactly if nothing of the process
was left out, and the finding is made on the figures of the row. -/

namespace SchedLedger

namespace Table

variable {κ ν : Type} [DecidableEq κ] {t : Table κ ν}

theorem sumOver_entries (h : t.keys.Nodup) (load : ν → UInt64) (k : κ) :
    sumOver (·.1 = k) (fun e => load e.2) t.entries = ((t.get? k).map load).getD 0 := by
  cases hv : t.get? k with
  | none =>
    refine sumOver_eq_zero fun e he => ?_
    have hmem : e.1 ∈ t.keys := List.mem_map_of_mem he
    have hk := get?_eq_none_iff.1 hv
    simpa using fun heq : e.1 = k => hk (heq ▸ hmem)
  | some v => exact sumOver_eq_of_mem (mem_entries_of_get? hv) (by simp) (not_both_of_nodup h k)

end Table

namespace Ledger

/-- How often a process was displaced, over all pairs. -/
def preemptedOf (l : Ledger) (pid : Pid) : UInt64 :=
  sumOver (·.1.victim = pid) (·.2) l.handoffs.entries

def preemptsOf (l : Ledger) (pid : Pid) : UInt64 :=
  sumOver (·.1.aggressor = pid) (·.2) l.handoffs.entries

/-- No table has an entity twice. -/
structure Distinct (l : Ledger) : Prop where
  cpu : l.cpu.keys.Nodup
  faults : l.faults.keys.Nodup

theorem distinct_run (r : Resolver) (units : Nat) (caps : Capacities) (actions : List Action) :
    ((Ledger.new units caps).run r actions).Distinct := by
  have hcpu := (Account.time_kept units r caps actions.reverse).nodup_keys
  have hfaults := (Account.faults_kept units r caps actions.reverse).nodup_keys
  rw [Account.after_reverse] at hcpu hfaults
  exact ⟨hcpu, hfaults⟩

variable {l : Ledger} (window : Span) (name : Pid → String) (pid : Pid)

theorem sumOver_cpuRanking (h : l.Distinct) :
    sumOver (·.pid = pid) CpuUsage.ns (l.cpuRanking 0) = l.timeOf pid := by
  refine (sumOver_map _ _ _ _).trans ?_
  exact sumOver_ranked.trans (Table.sumOver_entries h.cpu CpuRecord.ns pid)

theorem sumOver_faultRanking (h : l.Distinct) :
    sumOver (·.pid = pid) FaultCount.faults (l.faultRanking 0 window name) = l.faultsOf pid := by
  refine (sumOver_map _ _ _ _).trans ?_
  exact sumOver_ranked.trans (Table.sumOver_entries h.faults FaultRecord.faults pid)

theorem sumOver_victims (l : Ledger) :
    sumOver (·.victim = pid) HandoffCount.count (l.handoffRanking 0 name) = l.preemptedOf pid :=
  (sumOver_map _ _ _ _).trans sumOver_ranked

theorem sumOver_aggressors (l : Ledger) :
    sumOver (·.aggressor = pid) HandoffCount.count (l.handoffRanking 0 name) = l.preemptsOf pid :=
  (sumOver_map _ _ _ _).trans sumOver_ranked

theorem nodup_cpuRanking (h : l.Distinct) : ((l.cpuRanking 0).map (·.pid)).Nodup := by
  rw [cpuRanking, List.map_map]
  exact nodup_ranked h.cpu

theorem nodup_faultRanking (h : l.Distinct) : ((l.faultRanking 0 window name).map (·.pid)).Nodup := by
  rw [faultRanking, List.map_map]
  exact nodup_ranked h.faults

end Ledger

namespace Reading

variable {l : Ledger} (k : Nat) (window : Span) (name : Pid → String) (pid : Pid)

/-- What a reading leaves out: the entries further down in each ranking. -/
def leftOut (l : Ledger) (k : Nat) (window : Span) (name : Pid → String) : Reading where
  cpu := (l.cpuRanking 0).drop (3 * k)
  handoffs := (l.handoffRanking 0 name).drop (4 * k)
  faults := (l.faultRanking 0 window name).drop (3 * k)
  usage := []

theorem timeOf_add_leftOut (h : l.Distinct) :
    (front l k window name).timeOf pid + (leftOut l k window name).timeOf pid = l.timeOf pid := by
  rw [← l.sumOver_cpuRanking pid h, ← sumOver_take_add_drop (3 * k)]
  rfl

theorem faultsOf_add_leftOut (h : l.Distinct) :
    (front l k window name).faultsOf pid + (leftOut l k window name).faultsOf pid = l.faultsOf pid := by
  rw [← l.sumOver_faultRanking window name pid h, ← sumOver_take_add_drop (3 * k)]
  rfl

theorem preemptedOf_add_leftOut (l : Ledger) :
    (front l k window name).preemptedOf pid + (leftOut l k window name).preemptedOf pid = l.preemptedOf pid := by
  rw [← l.sumOver_victims name pid, ← sumOver_take_add_drop (4 * k)]
  rfl

theorem preemptsOf_add_leftOut (l : Ledger) :
    (front l k window name).preemptsOf pid + (leftOut l k window name).preemptsOf pid = l.preemptsOf pid := by
  rw [← l.sumOver_aggressors name pid, ← sumOver_take_add_drop (4 * k)]
  rfl

/-- Of the processor time of a process something is left out just if its entry is. -/
theorem timeOf_leftOut_eq_zero (h : l.Distinct) :
    (leftOut l k window name).timeOf pid = 0 ↔ pid ∉ (leftOut l k window name).cpu.map (·.pid) :=
  sumOver_drop_eq_zero_iff (fun _ => Ledger.pos_of_mem_cpuRanking) (l.nodup_cpuRanking h) _ pid

theorem faultsOf_leftOut_eq_zero (h : l.Distinct) :
    (leftOut l k window name).faultsOf pid = 0 ↔ pid ∉ (leftOut l k window name).faults.map (·.pid) :=
  sumOver_drop_eq_zero_iff (fun _ => Ledger.pos_of_mem_faultRanking) (l.nodup_faultRanking window name h) _ pid

theorem nodup_front (h : l.Distinct) :
    ((front l k window name).cpu.map (·.pid)).Nodup ∧ ((front l k window name).faults.map (·.pid)).Nodup :=
  ⟨(l.nodup_cpuRanking h).sublist ((List.take_sublist _ _).map _),
    (l.nodup_faultRanking window name h).sublist ((List.take_sublist _ _).map _)⟩

end Reading

/-- A figure of a reported process is the one of the ledger just if the reading left out nothing of it: for
the processor time and the faults no entry of the process, for the handoffs none that count. -/
theorem figures_of_report (r : Resolver) (units : Nat) (caps : Capacities) (actions : List Action)
    (topK : UInt64) (window : Span) (name : Pid → String) (e : Extent) (resident : List (Pid × UInt64))
    (memory : UInt64) (s : ReportSettings) :
    let l := (Ledger.new units caps).run r actions
    let left := Reading.leftOut l (max topK.toNat 1) window name
    ((∃ reading report, Reading.ofLedger l topK window name = .ok reading ∧
        Report.build reading e resident memory s = .ok report) ↔
      4 * max topK.toNat 1 < 2 ^ 64 ∧ 2 * max s.topK.toNat 1 < 2 ^ 64) ∧
    ∀ reading report, Reading.ofLedger l topK window name = .ok reading →
      Report.build reading e resident memory s = .ok report → ∀ row ∈ report.rows,
        (row.cpuNs = l.timeOf row.pid ↔ row.pid ∉ left.cpu.map (·.pid)) ∧
        (row.faults = l.faultsOf row.pid ↔ row.pid ∉ left.faults.map (·.pid)) ∧
        (row.preempted = l.preemptedOf row.pid ↔ left.preemptedOf row.pid = 0) ∧
        (row.preemptsOthers = l.preemptsOf row.pid ↔ left.preemptsOf row.pid = 0) ∧
        row.finding = row.classify := by
  intro l left
  refine ⟨Report.exists_report_iff, fun reading report hreading hreport row hrow => ?_⟩
  set k := max topK.toNat 1
  obtain ⟨-, rfl⟩ := Reading.ofLedger_eq_ok_iff.1 hreading
  obtain ⟨-, rfl⟩ := Report.build_eq_ok_iff.1 hreport
  have hdistinct := Ledger.distinct_run r units caps actions
  obtain ⟨hcpu, hfaults⟩ := Reading.nodup_front k window name hdistinct
  obtain ⟨hshows, hfinding⟩ := Reading.shows_of_mem_rows hcpu hfaults (List.mem_filter.1 hrow).1
  refine ⟨?_, ?_, ?_, ?_, hfinding⟩
  · rw [hshows.cpuNs, ← Reading.timeOf_add_leftOut k window name row.pid hdistinct, left_eq_add]
    exact Reading.timeOf_leftOut_eq_zero k window name row.pid hdistinct
  · rw [hshows.faults, ← Reading.faultsOf_add_leftOut k window name row.pid hdistinct, left_eq_add]
    exact Reading.faultsOf_leftOut_eq_zero k window name row.pid hdistinct
  · rw [hshows.preempted, ← Reading.preemptedOf_add_leftOut k window name row.pid l, left_eq_add]
  · rw [hshows.preemptsOthers, ← Reading.preemptsOf_add_leftOut k window name row.pid l, left_eq_add]

/-- A chain of five handoffs. Each of them is counted once, so they rank by their pairs, and the last one,
in which 9 is displaced after a millisecond, stands last. -/
def displacedLast : Ledger :=
  let events : List Event :=
    [.switch 0 0 1 2, .switch 0 0 2 3, .switch 0 0 3 4, .switch 0 0 4 9, .switch 0 1000000 9 1]
  (Ledger.new 1 ⟨8, 8, 8⟩).run .leafThenParent (events.map (Replay.action .empty))

namespace displacedLast

def settings : ReportSettings :=
  ⟨1, false, none, none⟩

def reading : Except Failure Reading :=
  Reading.ofLedger displacedLast 1 ⟨1000000⟩ fun _ => ""

def report (reading : Reading) : Except Failure Report :=
  Report.build reading ⟨⟨1000000⟩, 1⟩ [] 1 settings

theorem handoffRanking_eq :
    displacedLast.handoffRanking 0 (fun _ => "") =
      [⟨1, "", 2, "", 1⟩, ⟨2, "", 3, "", 1⟩, ⟨3, "", 4, "", 1⟩, ⟨4, "", 9, "", 1⟩, ⟨9, "", 1, "", 1⟩] := by
  have hentries : displacedLast.handoffs.entries =
      [(⟨0x100000002⟩, 1), (⟨0x200000003⟩, 1), (⟨0x300000004⟩, 1), (⟨0x400000009⟩, 1),
        (⟨0x900000001⟩, 1)] := rfl
  have hranked : ranked Prod.snd (·.1.raw.toNat) displacedLast.handoffs.entries =
      displacedLast.handoffs.entries := ranked_eq_self (by decide) (by decide)
  rw [Ledger.handoffRanking, hranked, hentries]
  decide

theorem preemptedOf_leftOut : (Reading.leftOut displacedLast 1 ⟨1000000⟩ fun _ => "").preemptedOf 9 = 1 := by
  rw [Reading.preemptedOf, Reading.leftOut, handoffRanking_eq]
  decide

theorem preemptsOf_leftOut : (Reading.leftOut displacedLast 1 ⟨1000000⟩ fun _ => "").preemptsOf 9 = 0 := by
  rw [Reading.preemptsOf, Reading.leftOut, handoffRanking_eq]
  decide

theorem exists_row :
    ∃ read made, reading = .ok read ∧ report read = .ok made ∧ ∃ row ∈ made.rows, row.pid = 9 := by
  refine ⟨_, _, Reading.ofLedger_eq_ok_iff.2 ⟨by decide, rfl⟩, Report.build_eq_ok_iff.2 ⟨by decide, rfl⟩, ?_⟩
  have hmem : (9 : Pid) ∈ ((Reading.front displacedLast 1 ⟨1000000⟩ fun _ => "").rows ⟨⟨1000000⟩, 1⟩ [] 1).map
      (·.pid) := by
    rw [Reading.mem_pids_rows, Reading.map_pid_edits, Reading.front, handoffRanking_eq]
    exact ⟨List.mem_append_right _ (by decide), by decide⟩
  obtain ⟨row, hrow, hpid⟩ := List.mem_map.1 hmem
  exact ⟨row, List.mem_filter.2 ⟨hrow, rfl⟩, hpid⟩

/-- A process that was displaced has a row that says it was not. -/
theorem row_hides_displacement :
    ∃ read made, reading = .ok read ∧ report read = .ok made ∧
      ∃ row ∈ made.rows, row.pid = 9 ∧ row.preempted = 0 ∧ displacedLast.preemptedOf row.pid = 1 := by
  obtain ⟨read, made, hread, hmade, row, hrow, hpid⟩ := exists_row
  refine ⟨read, made, hread, hmade, row, hrow, hpid, ?_⟩
  obtain ⟨-, rfl⟩ := Reading.ofLedger_eq_ok_iff.1 hread
  obtain ⟨-, rfl⟩ := Report.build_eq_ok_iff.1 hmade
  have hdistinct : displacedLast.Distinct := Ledger.distinct_run _ _ _ _
  obtain ⟨hcpu, hfaults⟩ := Reading.nodup_front 1 ⟨1000000⟩ (fun _ => "") hdistinct
  have hshows := (Reading.shows_of_mem_rows hcpu hfaults (List.mem_filter.1 hrow).1).1.preempted
  have hkept : (Reading.front displacedLast 1 ⟨1000000⟩ fun _ => "").preemptedOf 9 = 0 := by
    rw [Reading.preemptedOf, Reading.front, handoffRanking_eq]
    decide
  have hsum := Reading.preemptedOf_add_leftOut 1 ⟨1000000⟩ (fun _ => "") 9 displacedLast
  rw [hkept, preemptedOf_leftOut] at hsum
  rw [hpid, hkept] at hshows
  exact ⟨hshows, by rw [hpid]; exact hsum.symm⟩

/-- The row of 9 has every handoff that it gained by, and lacks the one that it lost by. -/
theorem row_keeps_gains :
    ∃ read made, reading = .ok read ∧ report read = .ok made ∧
      ∃ row ∈ made.rows, row.pid = 9 ∧ row.preemptsOthers = displacedLast.preemptsOf row.pid ∧
        row.preempted ≠ displacedLast.preemptedOf row.pid := by
  obtain ⟨read, made, hread, hmade, row, hrow, hpid⟩ := exists_row
  refine ⟨read, made, hread, hmade, row, hrow, hpid, ?_⟩
  obtain ⟨-, hfigures⟩ := figures_of_report .leafThenParent 1 ⟨8, 8, 8⟩ _ 1 ⟨1000000⟩ (fun _ => "") ⟨⟨1000000⟩, 1⟩ []
    1 settings
  obtain ⟨-, -, hpreempted, hpreempts, -⟩ := hfigures read made hread hmade row hrow
  refine ⟨hpreempts.2 ?_, fun heq => ?_⟩
  · rw [hpid]
    exact preemptsOf_leftOut
  · have hzero := hpreempted.1 heq
    rw [hpid] at hzero
    exact absurd (preemptedOf_leftOut.symm.trans hzero) (by decide)

end displacedLast

end SchedLedger
