import SchedLedger.Proofs.Coherence
import SchedLedger.Proofs.Declarations
import SchedLedger.Replay.Report
import Mathlib.Data.List.Sort

/-! Resident sizes. The processes that a reading mentions are just those that have rows, in the same order, so sizes
are looked up for the rows of a report and for nothing else: a row shows its declared size, or else the one that the
process tree has, and no process is asked for twice. -/

namespace SchedLedger

namespace Reading

variable {e : Extent} {resident : List (Pid × UInt64)} {memory : UInt64} {r : Reading}

theorem pids_ascend (r : Reading) : r.pids.Pairwise (· < ·) := by
  have hsorted : r.pids.Pairwise (· ≤ ·) :=
    (List.pairwise_mergeSort' (· ≤ ·) _).sublist (eraseDups_sublist _)
  exact (hsorted.and (nodup_eraseDups _)).imp fun h => UInt32.lt_of_le_of_ne h.1 h.2

theorem mem_pids_iff {pid : Pid} : pid ∈ r.pids ↔ r.Mentions pid ∧ pid ≠ 0 := by
  rw [← mem_pids_edits_iff (e := ⟨⟨0⟩, 0⟩), map_pid_edits, pids, List.mem_eraseDups, List.mem_mergeSort,
    List.mem_filter, decide_eq_true_eq]

theorem map_pid_rows (e : Extent) (resident : List (Pid × UInt64)) (memory : UInt64) (r : Reading) :
    (r.rows e resident memory).map (·.pid) = r.pids := by
  have hasc := (merged_rows e resident memory r).ascending
  have hperm : ((r.rows e resident memory).map (·.pid)).Perm r.pids := by
    rw [List.perm_ext_iff_of_nodup (hasc.imp UInt32.ne_of_lt) (r.pids_ascend.imp UInt32.ne_of_lt)]
    intro pid
    rw [mem_pids_rows, mem_pids_edits_iff, mem_pids_iff]
  exact hperm.eq_of_pairwise (fun _ _ _ _ hab hba => (UInt32.lt_asymm hab hba).elim) hasc r.pids_ascend

theorem residentMb_of_mem_counts {row : Row} (h : row ∈ r.counts e) : row.residentMb = 0 := by
  refine (congrArg Row.residentMb (eq_along_of_mem_counts h)).trans (Edit.along_same Row.residentMb ?_)
  intro x hx row
  rcases List.mem_append.1 hx with hx | hx
  · rcases List.mem_append.1 hx with hx | hx
    · obtain ⟨u, -, rfl⟩ := List.mem_map.1 hx
      rfl
    · obtain ⟨c, -, rfl⟩ := List.mem_map.1 hx
      rfl
  · obtain ⟨c, -, hx | hx⟩ := Edit.mem_flatMap_ends hx <;> rw [hx] <;> rfl

theorem residentMb_of_mem_rows {row : Row} (h : row ∈ r.rows e resident memory) :
    row.residentMb =
      match resident.lookup row.pid with
      | some bytes => bytes.toFloat / Row.bytesPerMb
      | none => 0 := by
  obtain ⟨counted, hcounted, rfl⟩ := List.mem_map.1 h
  rw [← residentMb_of_mem_counts hcounted]
  rfl

end Reading

namespace Report

variable {reading : Reading} {e : Extent} {resident : List (Pid × UInt64)} {memory : UInt64} {s : ReportSettings}
  {report : Report}

theorem rows_of_build (h : build reading e resident memory s = .ok report) :
    report.rows = (reading.rows e resident memory).filter s.filter.passes := by
  obtain ⟨-, rfl⟩ := build_eq_ok_iff.1 h
  rfl

theorem mem_rows_of_mem_sections (h : build reading e resident memory s = .ok report) {row : Row}
    (hrow : row ∈ report.cpu ++ report.cpuCost) : row ∈ report.rows := by
  obtain ⟨-, rfl⟩ := build_eq_ok_iff.1 h
  rcases List.mem_append.1 hrow with hrow | hrow
  · have hranked := (sublist_keepFirst s.limit _).subset hrow
    exact (List.mem_filter.1 (ranked_perm.mem_iff.1 hranked)).1
  · exact (costSection_subperm _ _).subset hrow

end Report

namespace Procs

variable {p : Procs} {files : Files}

theorem lookUpAll_concat (p : Procs) (files : Files) (pids : List Pid) (pid : Pid) :
    p.lookUpAll files (pids ++ [pid]) = p.lookUp files (p.lookUpAll files pids) pid := by
  rw [lookUpAll, List.foldl_append]
  rfl

theorem asked_lookUp (p : Procs) (files : Files) (l : Lookups) (pid : Pid) :
    (p.lookUp files l pid).asked = if pid = 0 ∨ pid ∈ l.asked then l.asked else l.asked ++ [pid] := by
  unfold lookUp
  split
  · rfl
  · split <;> rfl

/-- What is asked for does not depend on what is found. -/
theorem asked_lookUpAll (p : Procs) (files : Files) (pids : List Pid) :
    (p.lookUpAll files pids).asked = (pids.filter (· ≠ 0)).eraseDups := by
  induction pids using List.reverseRecOn with
  | nil => rfl
  | append_singleton pids pid ih =>
    rw [lookUpAll_concat, asked_lookUp, ih, List.filter_append]
    by_cases hidle : pid = 0
    · simp [hidle]
    rw [List.filter_cons_of_pos (by simpa using hidle), List.filter_nil]
    by_cases hold : pid ∈ pids.filter (· ≠ 0)
    · rw [if_pos (.inr (List.mem_eraseDups.2 hold)), eraseDups_concat_of_mem hold]
    · rw [if_neg (by simpa [hidle] using hold), eraseDups_concat_of_notMem hold]

theorem asked_eq_self {pids : List Pid} (hdistinct : pids.Nodup) (hreal : ∀ pid ∈ pids, pid ≠ 0) :
    (p.lookUpAll files pids).asked = pids := by
  rw [asked_lookUpAll, List.filter_eq_self.2 (by simpa using hreal), eraseDups_of_nodup hdistinct]

/-- A process with its size, if that can be read. -/
def sized (p : Procs) (files : Files) (pid : Pid) : Option (Pid × UInt64) :=
  (p.residentBytes files pid).toOption.map (pid, ·)

theorem found_lookUp {l : Lookups} (h : l.found = l.asked.filterMap (p.sized files)) (pid : Pid) :
    (p.lookUp files l pid).found = (p.lookUp files l pid).asked.filterMap (p.sized files) := by
  unfold lookUp
  split
  · exact h
  · cases hbytes : p.residentBytes files pid <;>
      simp [h, List.filterMap_append, sized, hbytes, Except.toOption]

theorem residentSizes_eq (p : Procs) (files : Files) (pids : List Pid) :
    p.residentSizes files pids = (p.lookUpAll files pids).asked.filterMap (p.sized files) := by
  unfold residentSizes
  induction pids using List.reverseRecOn with
  | nil => rfl
  | append_singleton pids pid ih =>
    rw [lookUpAll_concat]
    exact found_lookUp ih pid

theorem mem_residentSizes_iff {pids : List Pid} {pid : Pid} {bytes : UInt64} :
    (pid, bytes) ∈ p.residentSizes files pids ↔
      pid ∈ (p.lookUpAll files pids).asked ∧ p.residentBytes files pid = .ok bytes := by
  rw [residentSizes_eq, List.mem_filterMap]
  constructor
  · rintro ⟨pid', hpid, hfound⟩
    cases hbytes : p.residentBytes files pid' with
    | error cause => simp [sized, hbytes, Except.toOption] at hfound
    | ok found =>
      obtain ⟨rfl, rfl⟩ : pid' = pid ∧ found = bytes := by simpa [sized, hbytes, Except.toOption] using hfound
      exact ⟨hpid, hbytes⟩
  · rintro ⟨hpid, hbytes⟩
    exact ⟨pid, hpid, by simp [sized, hbytes, Except.toOption]⟩

theorem keys_residentSizes_sublist (p : Procs) (files : Files) (pids : List Pid) :
    ((p.residentSizes files pids).map Prod.fst).Sublist (p.lookUpAll files pids).asked := by
  have hkeys : ∀ pid ∈ (p.lookUpAll files pids).asked, ∀ found, p.sized files pid = some found → found.1 = id pid := by
    intro pid _ found hfound
    obtain ⟨bytes, -, rfl⟩ := Option.map_eq_some_iff.1 hfound
    rfl
  have hsub := map_filterMap_sublist hkeys
  rwa [List.map_id, ← residentSizes_eq] at hsub

theorem nodup_asked_lookUpAll (p : Procs) (files : Files) (pids : List Pid) : (p.lookUpAll files pids).asked.Nodup := by
  rw [asked_lookUpAll]
  exact nodup_eraseDups _

theorem nodup_residentSizes (p : Procs) (files : Files) (pids : List Pid) :
    ((p.residentSizes files pids).map Prod.fst).Nodup :=
  (p.nodup_asked_lookUpAll files pids).sublist (p.keys_residentSizes_sublist files pids)

theorem residentSizes_congr {files' : Files} {pids : List Pid}
    (h : ∀ pid ∈ (p.lookUpAll files pids).asked, files' (p.statmPath pid) = files (p.statmPath pid)) :
    p.residentSizes files' pids = p.residentSizes files pids := by
  rw [residentSizes_eq, residentSizes_eq, asked_lookUpAll, ← p.asked_lookUpAll files]
  refine List.filterMap_congr fun pid hpid => ?_
  have hbytes : p.residentBytes files' pid = p.residentBytes files pid := by
    unfold residentBytes Files.readText
    rw [h pid hpid]
  rw [sized, sized, hbytes]

end Procs

/-- The size that an entity was given last, if any. -/
def declaredSize? (ds : List Declaration) (pid : Pid) : Option UInt64 :=
  (declared? ds pid).bind (·.residentBytes)

theorem TaskTable.lookup_residentSizes (ds : List Declaration) (pid : Pid) :
    (ofDeclarations ds).residentSizes.lookup pid = declaredSize? ds pid := by
  have hkeyed := keyed_ofDeclarations ds
  ext bytes
  rw [lookup_eq_some_iff_mem hkeyed.nodup_residentSizes, hkeyed.mem_residentSizes_iff,
    (declares_ofDeclarations ds).lookup, declaredSize?]
  cases declared? ds pid <;> simp [Declaration.task]

namespace Replay

/-- The size that a row of a process is to show: the declared one, or else the one in the process tree, if either
is known. -/
def sizeFor? (ds : List Declaration) (procs : Procs) (files : Files) (pid : Pid) : Option UInt64 :=
  (declaredSize? ds pid).or (procs.residentBytes files pid).toOption

/-- How the sizes that were looked up for a reading fit `all`, its rows before any are filtered out. -/
structure SizesFit (ds : List Declaration) (procs : Procs) (files : Files) (all : List Row)
    (sizes : List (Pid × UInt64)) (lookups : Procs.Lookups) : Prop where
  shown : ∀ row ∈ all, row.residentMb =
    match sizeFor? ds procs files row.pid with
    | some bytes => bytes.toFloat / Row.bytesPerMb
    | none => 0
  sizes_eq : sizes = (TaskTable.ofDeclarations ds).residentSizes ++ lookups.found
  sizes_nodup : (sizes.map Prod.fst).Nodup
  asked_eq : lookups.asked = (all.map (·.pid)).filter fun pid => (declaredSize? ds pid).isNone
  asked_nodup : lookups.asked.Nodup

variable (ds : List Declaration) (ledger : Ledger) (units : UInt64) (procs : Procs) (files : Files)

def unsized (ds : List Declaration) (pids : List Pid) : List Pid :=
  pids.filter fun pid => (declaredSize? ds pid).isNone

theorem residentSizes_eq_append (pids : List Pid) :
    residentSizes ⟨ledger, .ofDeclarations ds, units⟩ procs files pids =
      (TaskTable.ofDeclarations ds).residentSizes ++ procs.residentSizes files (unsized ds pids) := by
  simp only [residentSizes, unsized, TaskTable.lookup_residentSizes]

theorem asked_unsized (reading : Reading) :
    (procs.lookUpAll files (unsized ds reading.pids)).asked = unsized ds reading.pids := by
  refine Procs.asked_eq_self ((reading.pids_ascend.imp UInt32.ne_of_lt).filter _) fun pid hpid => ?_
  exact (Reading.mem_pids_iff.1 (List.mem_filter.1 hpid).1).2

variable {ds procs files}

theorem lookup_unsized {reading : Reading} {pid : Pid} (hpid : pid ∈ reading.pids)
    (hnone : declaredSize? ds pid = none) :
    (procs.residentSizes files (unsized ds reading.pids)).lookup pid =
      (procs.residentBytes files pid).toOption := by
  ext bytes
  rw [lookup_eq_some_iff_mem (Procs.nodup_residentSizes ..), Procs.mem_residentSizes_iff, asked_unsized, unsized,
    List.mem_filter, hnone]
  cases procs.residentBytes files pid <;> simp [hpid, Except.toOption]

theorem lookup_residentSizes {reading : Reading} {pid : Pid} (hpid : pid ∈ reading.pids) :
    (residentSizes ⟨ledger, .ofDeclarations ds, units⟩ procs files reading.pids).lookup pid =
      sizeFor? ds procs files pid := by
  rw [residentSizes_eq_append, List.lookup_append, TaskTable.lookup_residentSizes, sizeFor?]
  cases hdeclared : declaredSize? ds pid with
  | some bytes => rfl
  | none => rw [lookup_unsized hpid hdeclared]

/-- A size is looked up only where none was declared, so no process has two. -/
theorem nodup_residentSizes (reading : Reading) :
    ((residentSizes ⟨ledger, .ofDeclarations ds, units⟩ procs files reading.pids).map Prod.fst).Nodup := by
  rw [residentSizes_eq_append, List.map_append, List.nodup_append]
  refine ⟨(TaskTable.keyed_ofDeclarations ds).nodup_residentSizes, Procs.nodup_residentSizes ..,
    fun pid hdeclared pid' hlooked heq => ?_⟩
  subst heq
  have hmem : pid ∈ unsized ds reading.pids :=
    asked_unsized ds procs files reading ▸ (Procs.keys_residentSizes_sublist ..).subset hlooked
  have hnone : (TaskTable.ofDeclarations ds).residentSizes.lookup pid = none := by
    rw [TaskTable.lookup_residentSizes]
    simpa using (List.mem_filter.1 hmem).2
  obtain ⟨known, hknown, rfl⟩ := List.mem_map.1 hdeclared
  simpa using List.lookup_eq_none_iff.1 hnone known hknown

variable (ds procs files) in
theorem sizesFit_rows (reading : Reading) (e : Extent) (memory : UInt64) :
    let sizes := residentSizes ⟨ledger, .ofDeclarations ds, units⟩ procs files reading.pids
    SizesFit ds procs files (reading.rows e sizes memory) sizes
      (procs.lookUpAll files (unsized ds reading.pids)) where
  shown row hrow := by
    have hpid : row.pid ∈ reading.pids := by
      rw [← reading.map_pid_rows]
      exact List.mem_map_of_mem hrow
    rw [Reading.residentMb_of_mem_rows hrow, lookup_residentSizes ledger units hpid]
  sizes_eq := residentSizes_eq_append ..
  sizes_nodup := nodup_residentSizes ..
  asked_eq := by
    rw [Reading.map_pid_rows, asked_unsized]
    rfl
  asked_nodup := procs.nodup_asked_lookUpAll files _

theorem reading_eq_ok_iff {r : Replay} {procs : Procs} {files : Files} {topK : UInt64} {window : Span}
    {reading : Reading} :
    r.reading procs files topK window = .ok reading ↔
      4 * max topK.toNat 1 < 2 ^ 64 ∧
        reading = .front r.ledger (max topK.toNat 1) window fun pid => (r.tasks.nameOf procs files pid []).1 :=
  Reading.ofLedger_eq_ok_iff

theorem report_eq {r : Replay} {s : Settings} {host : Host} {window : Span} {reading : Reading}
    (h : r.reading (host.procs s.procsRoot) host.files s.report.topK window = .ok reading) :
    r.report s host window =
      Report.build reading ⟨window, r.units⟩ (r.residentSizes (host.procs s.procsRoot) host.files reading.pids)
        (s.memory host) s.report := by
  rw [report, h]
  rfl

/-- A report fails only by a multiple of the rows of a section that is too large. -/
theorem exists_report_iff {r : Replay} {s : Settings} {host : Host} {window : Span} :
    (∃ report, r.report s host window = .ok report) ↔ 4 * max s.report.topK.toNat 1 < 2 ^ 64 := by
  cases hreading : r.reading (host.procs s.procsRoot) host.files s.report.topK window with
  | error cause =>
    have hlarge := (Reading.ofLedger_eq_error_iff.1 hreading).1
    rw [report, hreading]
    exact ⟨fun h => (nomatch h), fun hfits => absurd hfits (Nat.not_lt.2 hlarge)⟩
  | ok reading =>
    have hfits := (reading_eq_ok_iff.1 hreading).1
    simp only [report_eq hreading, Report.build_eq_ok_iff]
    exact ⟨fun _ => hfits, fun _ => ⟨_, by omega, rfl⟩⟩

/-- The processes that a reading mentions ascend and are those of its rows. So whatever a ledger holds and whatever
tasks are declared, every row of a report has its declared size or else the one in the process tree; nothing is
looked up twice or for a process that has a size already; and only the files of the processes that were asked for
bear on the sizes. -/
theorem sizes_of_reported_processes :
    (∀ (reading : Reading) (e : Extent) (resident : List (Pid × UInt64)) (memory : UInt64),
      reading.pids.Pairwise (· < ·) ∧ (reading.rows e resident memory).map (·.pid) = reading.pids) ∧
    ∀ (ledger : Ledger) (ds : List Declaration) (units : UInt64) (s : Settings) (host : Host) (window : Span),
      let r : Replay := ⟨ledger, .ofDeclarations ds, units⟩
      let procs := host.procs s.procsRoot
      ((∃ report, r.report s host window = .ok report) ↔ 4 * max s.report.topK.toNat 1 < 2 ^ 64) ∧
      ((∃ reading, r.reading procs host.files s.report.topK window = .ok reading) ↔
        4 * max s.report.topK.toNat 1 < 2 ^ 64) ∧
      ∀ reading, r.reading procs host.files s.report.topK window = .ok reading →
        let sizes := r.residentSizes procs host.files reading.pids
        let all := reading.rows ⟨window, units⟩ sizes (s.memory host)
        let lookups :=
          procs.lookUpAll host.files (reading.pids.filter fun pid => (r.tasks.residentSizes.lookup pid).isNone)
        (∀ report, r.report s host window = .ok report →
          report.rows = all.filter s.report.filter.passes ∧
            ∀ row ∈ report.rows ++ report.cpu ++ report.cpuCost, row ∈ all) ∧
        SizesFit ds procs host.files all sizes lookups ∧
        ∀ files', (∀ pid ∈ lookups.asked, files' (procs.statmPath pid) = host.files (procs.statmPath pid)) →
          r.residentSizes procs files' reading.pids = sizes := by
  refine ⟨fun reading e resident memory => ⟨reading.pids_ascend, reading.map_pid_rows e resident memory⟩, ?_⟩
  intro ledger ds units s host window r procs
  refine ⟨exists_report_iff, by simp only [reading_eq_ok_iff, exists_and_left, exists_eq, and_true], ?_⟩
  intro reading hreading sizes all lookups
  refine ⟨fun report hreport => ?_, ?_, fun files' hfiles' => ?_⟩
  · rw [report_eq hreading] at hreport
    have hrows : report.rows = all.filter s.report.filter.passes := Report.rows_of_build hreport
    refine ⟨hrows, fun row hrow => ?_⟩
    have hmem : row ∈ report.rows := by
      rw [List.append_assoc] at hrow
      exact (List.mem_append.1 hrow).elim id (Report.mem_rows_of_mem_sections hreport)
    exact (List.mem_filter.1 (hrows ▸ hmem)).1
  · have hfit := sizesFit_rows ds ledger units procs host.files reading ⟨window, units⟩ (s.memory host)
    simpa only [lookups, r, unsized, TaskTable.lookup_residentSizes] using hfit
  · exact congrArg (r.tasks.residentSizes ++ ·) (Procs.residentSizes_congr hfiles')

/-- Task 7 has a declared size, tasks 8 and 9 have none, and 9 is known as an aggressor only. -/
def sizedTasks : List Declaration :=
  [⟨7, "seven", none, some 2097152⟩, ⟨8, "eight", none, none⟩]

def sizedLedger : Ledger :=
  (Ledger.new 1 .reference).run .leafThenParent
    [.switch ((TaskTable.ofDeclarations sizedTasks).context 0) 0 5 0 7,
      .switch ((TaskTable.ofDeclarations sizedTasks).context 7) 0 9 7 9,
      .fault ((TaskTable.ofDeclarations sizedTasks).context 8)]

/-- The process tree has 64 pages for each task but 9, and the platform states pages of 16 KiB. -/
def sizedHost : Host where
  files path :=
    if path = "/proc/7/statm" ∨ path = "/proc/8/statm" then .ok (Text.Utf8.encode "300 64 0") else .error .notFound
  page := .ofPlatform 16384

def sizedSettings : Settings :=
  { Settings.standard with report := ⟨5, false, none, none⟩ }

def sizedReplay : Replay :=
  ⟨sizedLedger, .ofDeclarations sizedTasks, 1⟩

theorem pids_sizedReading (name : Pid → String) : (Reading.front sizedLedger 5 ⟨10⟩ name).pids = [7, 8, 9] := by
  have hcpu : (Reading.front sizedLedger 5 ⟨10⟩ name).cpu.map (·.pid) = [7] := by
    rw [Reading.front, Ledger.cpuRanking, ranked_eq_self (by decide +kernel) (by decide +kernel)]
    rfl
  have hfaults : (Reading.front sizedLedger 5 ⟨10⟩ name).faults.map (·.pid) = [8] := by
    rw [Reading.front, Ledger.faultRanking, ranked_eq_self (by decide +kernel) (by decide +kernel)]
    rfl
  have hhandoffs : ((Reading.front sizedLedger 5 ⟨10⟩ name).handoffs.flatMap fun c => [c.victim, c.aggressor]) =
      [7, 9] := by
    rw [Reading.front, Ledger.handoffRanking, ranked_eq_self (by decide +kernel) (by decide +kernel)]
    rfl
  rw [Reading.pids, hcpu, hfaults, hhandoffs, List.mergeSort_eq_insertionSort]
  decide

theorem sizes_of_reported_processes_of_mixed :
    ∃ reading report,
      sizedReplay.reading (sizedHost.procs "/proc") sizedHost.files 5 ⟨10⟩ = .ok reading ∧
      sizedReplay.report sizedSettings sizedHost ⟨10⟩ = .ok report ∧
      (report.rows.map fun row => (row.pid, row.residentMb)) = [(7, 2), (8, 1), (9, 0)] ∧
      reading.pids = [7, 8, 9] ∧
      ((sizedHost.procs "/proc").lookUpAll sizedHost.files (reading.pids.filter fun pid =>
        (sizedReplay.tasks.residentSizes.lookup pid).isNone)).asked = [8, 9] := by
  obtain ⟨hpidsOf, hreplay⟩ := sizes_of_reported_processes
  obtain ⟨hreports, hreadings, hsizes⟩ := hreplay sizedLedger sizedTasks 1 sizedSettings sizedHost ⟨10⟩
  obtain ⟨report, hreport⟩ := hreports.2 (by decide)
  obtain ⟨reading, hreading⟩ := hreadings.2 (by decide)
  obtain ⟨hshown, hfit, -⟩ := hsizes reading hreading
  have hpids : reading.pids = [7, 8, 9] := by
    rw [(reading_eq_ok_iff.1 hreading).2]
    exact pids_sizedReading _
  set all := reading.rows ⟨⟨10⟩, 1⟩ (sizedReplay.residentSizes (sizedHost.procs "/proc") sizedHost.files reading.pids)
    (sizedSettings.memory sizedHost)
  have hall : all.map (·.pid) = [7, 8, 9] := (hpidsOf reading _ _ _).2.trans hpids
  have hrows : report.rows = all := (hshown report hreport).1.trans (List.filter_eq_self.2 fun _ _ => rfl)
  have hmap : all.map (fun row => (row.pid, row.residentMb)) = (all.map (·.pid)).map fun pid =>
      (pid, match sizeFor? sizedTasks (sizedHost.procs "/proc") sizedHost.files pid with
        | some bytes => bytes.toFloat / Row.bytesPerMb
        | none => 0) := by
    rw [List.map_map]
    exact List.map_congr_left fun row hrow => congrArg (row.pid, ·) (hfit.shown row hrow)
  refine ⟨reading, report, hreading, hreport, ?_, hpids, hfit.asked_eq.trans ?_⟩
  · rw [hrows, hmap, hall]
    decide +kernel
  · exact (congrArg (List.filter fun pid => (declaredSize? sizedTasks pid).isNone) hall).trans (by decide)

end Replay

end SchedLedger
