import SchedLedger.Proofs.Rows
import SchedLedger.Proofs.Totals

/-! Merging is a join. A process has one row if any list has it, and the row holds what the lists have of the
process: its own entries, the counts of the handoffs in which it was one end or the other, and the first name and
group that are given. -/

namespace SchedLedger

/-- The first of some texts that is not empty, the empty one if there is none. -/
def firstText (texts : List String) : String :=
  (texts.find? (· ≠ "")).getD ""

theorem firstText_nil : firstText [] = "" :=
  rfl

theorem firstText_cons (s : String) (ss : List String) : firstText (s :: ss) = orText s (firstText ss) := by
  unfold firstText orText
  by_cases hs : s = "" <;> simp [hs]

theorem orText_assoc (a b c : String) : orText (orText a b) c = orText a (orText b c) := by
  unfold orText
  by_cases ha : a = "" <;> simp [ha]

theorem orText_empty (s : String) : orText s "" = s := by
  unfold orText
  split
  · next h => exact h.symm
  · rfl

theorem empty_orText (s : String) : orText "" s = s :=
  if_pos rfl

theorem firstText_append (xs ys : List String) :
    firstText (xs ++ ys) = orText (firstText xs) (firstText ys) := by
  induction xs with
  | nil => rfl
  | cons s ss ih => rw [List.cons_append, firstText_cons, ih, firstText_cons, orText_assoc]

/-- The names that a handoff has for a process, which may be both its ends. -/
def HandoffCount.labels (pid : Pid) (c : HandoffCount) : List String :=
  (if c.victim = pid then [c.victimComm] else []) ++ if c.aggressor = pid then [c.aggressorComm] else []

namespace Edit

variable {α : Type} {pid : Pid} {r : Row}

/-- Of edits that concern different processes, a row undergoes the one of its process, if there is one. -/
theorem along_find {edit : α → Edit} {xs : List α} (hdistinct : (xs.map fun x => (edit x).pid).Nodup) :
    along pid (xs.map edit) r =
      ((xs.find? fun x => (edit x).pid = pid).map fun x => (edit x).change r).getD r := by
  cases hfind : xs.find? fun x => (edit x).pid = pid with
  | none =>
    have hnone : ∀ x ∈ xs, (edit x).pid ≠ pid := by simpa using hfind
    rw [along, List.filter_eq_nil_iff.2 (by simpa using hnone)]
    rfl
  | some x =>
    have hpid : (edit x).pid = pid := by simpa using List.find?_some hfind
    exact along_single hdistinct (List.mem_of_find?_eq_some hfind) hpid

theorem comm_along_ends (cs : List HandoffCount) :
    (along pid (cs.flatMap ends) r).comm = orText r.comm (firstText (cs.flatMap (·.labels pid))) := by
  induction cs generalizing r with
  | nil => exact (orText_empty r.comm).symm
  | cons c cs ih =>
    have hends : (along pid (ends c) r).comm = orText r.comm (firstText (c.labels pid)) := by
      by_cases hv : c.victim = pid <;> by_cases ha : c.aggressor = pid <;>
        simp [along, ends, HandoffCount.labels, hv, ha, Row.asVictim, Row.asAggressor, firstText_cons,
          firstText_nil, orText_assoc, orText_empty]
    rw [List.flatMap_cons, along_append, ih, hends, List.flatMap_cons, firstText_append, orText_assoc]

end Edit

namespace Reading

/-- The entry of a process in the list of processor times. -/
def cpuOf? (r : Reading) (pid : Pid) : Option CpuUsage :=
  r.cpu.find? (·.pid = pid)

def faultsOf? (r : Reading) (pid : Pid) : Option FaultCount :=
  r.faults.find? (·.pid = pid)

/-- The names that the lists have for a process: of its own entries first, and then of handoffs in their
order. -/
def namesOf (r : Reading) (pid : Pid) : List String :=
  (r.cpuOf? pid).toList.map (·.comm) ++ (r.faultsOf? pid).toList.map (·.comm) ++
    r.handoffs.flatMap (·.labels pid)

def groupsOf (r : Reading) (pid : Pid) : List String :=
  (r.cpuOf? pid).toList.map (·.group) ++ (r.faultsOf? pid).toList.map (·.group)

/-- How many handoffs have a process as their victim, in whole numbers. -/
def lossesOf (r : Reading) (pid : Pid) : Nat :=
  ((r.handoffs.filter (·.victim = pid)).map (·.count.toNat)).sum

def gainsOf (r : Reading) (pid : Pid) : Nat :=
  ((r.handoffs.filter (·.aggressor = pid)).map (·.count.toNat)).sum

def Mentions (r : Reading) (pid : Pid) : Prop :=
  (∃ u ∈ r.cpu, u.pid = pid) ∨ (∃ c ∈ r.faults, c.pid = pid) ∨
    ∃ c ∈ r.handoffs, c.victim = pid ∨ c.aggressor = pid

theorem mem_pids_edits_iff {e : Extent} {r : Reading} {pid : Pid} :
    pid ∈ (r.edits e).map (·.pid) ↔ r.Mentions pid := by
  simp only [map_pid_edits, List.mem_append, List.mem_map, List.mem_flatMap, List.mem_cons,
    List.not_mem_nil, or_false, Mentions, or_assoc, eq_comm (a := pid)]

theorem toNat_preemptedOf {r : Reading} {pid : Pid} (h : r.lossesOf pid < 2 ^ 64) :
    (r.preemptedOf pid).toNat = r.lossesOf pid := by
  rw [preemptedOf, sumOver, toNat_sum, List.map_map]
  exact Nat.mod_eq_of_lt h

theorem toNat_preemptsOf {r : Reading} {pid : Pid} (h : r.gainsOf pid < 2 ^ 64) :
    (r.preemptsOf pid).toNat = r.gainsOf pid := by
  rw [preemptsOf, sumOver, toNat_sum, List.map_map]
  exact Nat.mod_eq_of_lt h

end Reading

/-- The row holds what the lists have of its process. -/
structure Row.Joins (row : Row) (r : Reading) : Prop where
  cpuNs : row.cpuNs = ((r.cpuOf? row.pid).map (·.ns)).getD 0
  faults : row.faults = ((r.faultsOf? row.pid).map (·.faults)).getD 0
  preempted : row.preempted.toNat = r.lossesOf row.pid
  preemptsOthers : row.preemptsOthers.toNat = r.gainsOf row.pid
  comm : row.comm = firstText (r.namesOf row.pid)
  group : row.group = firstText (r.groupsOf row.pid)

def Row.integers (row : Row) : Pid × UInt64 × UInt64 × UInt64 × UInt64 :=
  (row.pid, row.cpuNs, row.faults, row.preempted, row.preemptsOthers)

namespace Reading

variable {e : Extent} {resident : List (Pid × UInt64)} {memory : UInt64} {r : Reading}

/-- What a row has from the entries of its process, before any handoffs. -/
def ownEntries (e : Extent) (r : Reading) (pid : Pid) : Row :=
  Edit.along pid (r.cpu.map (.cpu e) ++ r.faults.map .faults) { pid := pid }

theorem ownEntries_eq (hcpu : (r.cpu.map (·.pid)).Nodup) (hfaults : (r.faults.map (·.pid)).Nodup) (pid : Pid) :
    (r.ownEntries e pid).cpuNs = ((r.cpuOf? pid).map (·.ns)).getD 0 ∧
      (r.ownEntries e pid).faults = ((r.faultsOf? pid).map (·.faults)).getD 0 ∧
      (r.ownEntries e pid).comm =
        firstText ((r.cpuOf? pid).toList.map (·.comm) ++ (r.faultsOf? pid).toList.map (·.comm)) ∧
      (r.ownEntries e pid).group = firstText (r.groupsOf pid) := by
  have hrow : r.ownEntries e pid =
      ((r.faultsOf? pid).map fun c => Row.withFaults c (((r.cpuOf? pid).map fun u =>
        Row.withCpu e u { pid := pid }).getD { pid := pid })).getD
          (((r.cpuOf? pid).map fun u => Row.withCpu e u { pid := pid }).getD { pid := pid }) := by
    rw [ownEntries, Edit.along_append, Edit.along_find hfaults, Edit.along_find hcpu]
    rfl
  rw [hrow, groupsOf]
  cases r.cpuOf? pid <;> cases r.faultsOf? pid <;>
    simp [Row.withCpu, Row.withFaults, firstText_cons, firstText_nil, orText_empty, empty_orText]

theorem joins_of_mem_counts (hcpu : (r.cpu.map (·.pid)).Nodup) (hfaults : (r.faults.map (·.pid)).Nodup)
    {row : Row} (h : row ∈ r.counts e) (hlosses : r.lossesOf row.pid < 2 ^ 64)
    (hgains : r.gainsOf row.pid < 2 ^ 64) : row.Joins r := by
  have hshows := shows_of_mem_counts hcpu hfaults h
  have hrow : row = Edit.along row.pid (r.handoffs.flatMap Edit.ends) (r.ownEntries e row.pid) := by
    rw [ownEntries, ← Edit.along_append]
    exact eq_along_of_mem_counts h
  obtain ⟨hns, hfaulted, hcomm, hgroup⟩ := ownEntries_eq (e := e) hcpu hfaults row.pid
  -- handoffs leave the figures and the group of the own entries
  have hkeeps : ∀ {β : Type} (φ : Row → β), (∀ c r, φ (Row.asVictim c r) = φ r) →
      (∀ c r, φ (Row.asAggressor c r) = φ r) → φ row = φ (r.ownEntries e row.pid) := by
    intro β φ hv ha
    refine (congrArg φ hrow).trans (Edit.along_same φ fun x hx row => ?_)
    obtain ⟨c, -, hx | hx⟩ := Edit.mem_flatMap_ends hx
    · rw [hx, hv]
    · rw [hx, ha]
  constructor
  · exact (hkeeps Row.cpuNs (fun _ _ => rfl) fun _ _ => rfl).trans hns
  · exact (hkeeps Row.faults (fun _ _ => rfl) fun _ _ => rfl).trans hfaulted
  · rw [hshows.preempted, toNat_preemptedOf hlosses]
  · rw [hshows.preemptsOthers, toNat_preemptsOf hgains]
  · rw [namesOf, firstText_append, ← hcomm, ← Edit.comm_along_ends]
    exact congrArg Row.comm hrow
  · exact (hkeeps Row.group (fun _ _ => rfl) fun _ _ => rfl).trans hgroup

theorem joins_of_mem_rows (hcpu : (r.cpu.map (·.pid)).Nodup) (hfaults : (r.faults.map (·.pid)).Nodup)
    {row : Row} (h : row ∈ r.rows e resident memory) (hlosses : r.lossesOf row.pid < 2 ^ 64)
    (hgains : r.gainsOf row.pid < 2 ^ 64) : row.Joins r := by
  obtain ⟨counted, hcounted, rfl⟩ := List.mem_map.1 h
  obtain ⟨hns, hfaulted, hpreempted, hpreempts, hcomm, hgroup⟩ :=
    joins_of_mem_counts hcpu hfaults hcounted hlosses hgains
  exact ⟨hns, hfaulted, hpreempted, hpreempts, hcomm, hgroup⟩

theorem merged_rows (e : Extent) (resident : List (Pid × UInt64)) (memory : UInt64) (r : Reading) :
    Merged (r.rows e resident memory) where
  ascending := by
    rw [rows, List.map_map]
    exact (merged_counts e r).ascending
  real := List.forall_mem_map.2 (merged_counts e r).real

def integersOf (r : Reading) (pid : Pid) : Pid × UInt64 × UInt64 × UInt64 × UInt64 :=
  (pid, r.timeOf pid, r.faultsOf pid, r.preemptedOf pid, r.preemptsOf pid)

theorem map_integers_rows (hcpu : (r.cpu.map (·.pid)).Nodup) (hfaults : (r.faults.map (·.pid)).Nodup) :
    (r.rows e resident memory).map Row.integers =
      ((r.rows e resident memory).map (·.pid)).map r.integersOf := by
  rw [List.map_map]
  refine List.map_congr_left fun row hrow => ?_
  have hshows := (shows_of_mem_rows hcpu hfaults hrow).1
  rw [Row.integers, hshows.cpuNs, hshows.faults, hshows.preempted, hshows.preemptsOthers]
  rfl

structure Reordered (r' r : Reading) : Prop where
  cpu : r'.cpu.Perm r.cpu
  faults : r'.faults.Perm r.faults
  handoffs : r'.handoffs.Perm r.handoffs

theorem Reordered.mentions {r' : Reading} (h : Reordered r' r) (pid : Pid) : r'.Mentions pid ↔ r.Mentions pid := by
  simp only [Mentions, h.cpu.mem_iff, h.faults.mem_iff, h.handoffs.mem_iff]

theorem Reordered.integersOf {r' : Reading} (h : Reordered r' r) : r'.integersOf = r.integersOf := by
  funext pid
  simp only [Reading.integersOf, timeOf, Reading.faultsOf, preemptedOf, preemptsOf, sumOver_perm h.cpu,
    sumOver_perm h.faults, sumOver_perm h.handoffs]

/-- The processes that have rows stand in one order only. -/
theorem Reordered.map_pid_rows {r' : Reading} (h : Reordered r' r) :
    (r'.rows e resident memory).map (·.pid) = (r.rows e resident memory).map (·.pid) := by
  have hasc := (merged_rows e resident memory r).ascending
  have hasc' := (merged_rows e resident memory r').ascending
  have hperm : ((r'.rows e resident memory).map (·.pid)).Perm ((r.rows e resident memory).map (·.pid)) := by
    rw [List.perm_ext_iff_of_nodup (hasc'.imp fun hlt => UInt32.ne_of_lt hlt)
      (hasc.imp fun hlt => UInt32.ne_of_lt hlt)]
    intro pid
    simp only [mem_pids_rows, mem_pids_edits_iff, h.mentions]
  exact hperm.eq_of_pairwise (fun _ _ _ _ hab hba => (UInt32.lt_asymm hab hba).elim) hasc' hasc

end Reading

/-- Of lists that have no process twice, merging makes the join: one row for each process of any list but the idle
task, ascending, with what the lists have of it. The whole numbers do not depend on the order of the lists. -/
theorem rows_are_join (e : Extent) (resident : List (Pid × UInt64)) (memory : UInt64) (r : Reading)
    (hcpu : (r.cpu.map (·.pid)).Nodup) (hfaults : (r.faults.map (·.pid)).Nodup)
    (hfits : ∀ pid, pid ≠ 0 → r.lossesOf pid < 2 ^ 64 ∧ r.gainsOf pid < 2 ^ 64) :
    let rows := r.rows e resident memory
    (rows.map (·.pid)).Pairwise (· < ·) ∧
    (∀ pid, (∃ row ∈ rows, row.pid = pid) ↔ pid ≠ 0 ∧ r.Mentions pid) ∧
    (∀ row ∈ rows, row.Joins r) ∧
    ∀ r', Reading.Reordered r' r → (r'.rows e resident memory).map Row.integers = rows.map Row.integers := by
  intro rows
  have hmerged := Reading.merged_rows e resident memory r
  refine ⟨hmerged.ascending, fun pid => ?_, fun row hrow => ?_, fun r' hr' => ?_⟩
  · rw [← List.mem_map, Reading.mem_pids_rows, Reading.mem_pids_edits_iff, and_comm]
  · obtain ⟨hlosses, hgains⟩ := hfits row.pid (hmerged.real row hrow)
    exact Reading.joins_of_mem_rows hcpu hfaults hrow hlosses hgains
  · have hcpu' := (hr'.cpu.map (·.pid)).nodup_iff.2 hcpu
    have hfaults' := (hr'.faults.map (·.pid)).nodup_iff.2 hfaults
    rw [Reading.map_integers_rows hcpu' hfaults', Reading.map_integers_rows hcpu hfaults, hr'.map_pid_rows,
      hr'.integersOf]

/-- Lists in which the idle task occurs, a process displaces itself, and names are missing. -/
def sharedEnds : Reading where
  cpu := [⟨7, "", "app", 5⟩, ⟨0, "idle", "", 10⟩, ⟨3, "db", "", 2⟩]
  faults := [⟨3, "other", "data", 4, 0⟩, ⟨9, "", "", 1, 0⟩]
  handoffs := [⟨9, "", 7, "seven", 2⟩, ⟨7, "late", 7, "later", 3⟩, ⟨9, "nine", 0, "idle", 8⟩]
  usage := []

theorem rows_are_join_of_sharedEnds :
    (sharedEnds.cpu.map (·.pid)).Nodup ∧ (sharedEnds.faults.map (·.pid)).Nodup ∧
      (∀ pid, pid ≠ 0 → sharedEnds.lossesOf pid < 2 ^ 64 ∧ sharedEnds.gainsOf pid < 2 ^ 64) ∧
      (∃ row ∈ sharedEnds.rows ⟨⟨1000⟩, 2⟩ [] 1, row.pid = 7 ∧ row.comm = "seven" ∧ row.group = "app" ∧
        row.cpuNs = 5 ∧ row.preempted.toNat = 3 ∧ row.preemptsOthers.toNat = 5) ∧
      ¬ ∃ row ∈ sharedEnds.rows ⟨⟨1000⟩, 2⟩ [] 1, row.pid = 0 := by
  have hcpu : (sharedEnds.cpu.map (·.pid)).Nodup := by decide
  have hfaults : (sharedEnds.faults.map (·.pid)).Nodup := by decide
  have hfits : ∀ pid, pid ≠ 0 → sharedEnds.lossesOf pid < 2 ^ 64 ∧ sharedEnds.gainsOf pid < 2 ^ 64 := by
    intro pid _
    have hall : (sharedEnds.handoffs.map (·.count.toNat)).sum < 2 ^ 64 := by decide
    exact ⟨(sum_filter_le _ _ _).trans_lt hall, (sum_filter_le _ _ _).trans_lt hall⟩
  obtain ⟨-, hpids, hjoins, -⟩ := rows_are_join ⟨⟨1000⟩, 2⟩ [] 1 sharedEnds hcpu hfaults hfits
  refine ⟨hcpu, hfaults, hfits, ?_, fun hidle => ((hpids 0).1 hidle).1 rfl⟩
  obtain ⟨row, hrow, hpid⟩ := (hpids 7).2 ⟨by decide, .inl ⟨⟨7, "", "app", 5⟩, by decide, rfl⟩⟩
  obtain ⟨hns, -, hpreempted, hpreempts, hcomm, hgroup⟩ := hjoins row hrow
  rw [hpid] at hns hpreempted hpreempts hcomm hgroup
  exact ⟨row, hrow, hpid, hcomm.trans (by decide), hgroup.trans (by decide), hns.trans (by decide),
    hpreempted.trans (by decide), hpreempts.trans (by decide)⟩

end SchedLedger
