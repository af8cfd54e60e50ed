import SchedLedger.Proofs.Ranking
import SchedLedger.Report.Merge

/-! Merging by edits. What was read from the tables is a list of edits, each of the row of one process. The
edits of a row are made in their order and do not concern any other row, so a row is what its own edits
make of an empty one. -/

namespace SchedLedger

/-- The rows ascend by process, and the idle task has none. -/
structure Merged (rows : List Row) : Prop where
  ascending : (rows.map (·.pid)).Pairwise (· < ·)
  real : ∀ r ∈ rows, r.pid ≠ 0

/-- The row of a process, an empty one if there is none. -/
def rowFor (pid : Pid) (rows : List Row) : Row :=
  (rows.find? (·.pid = pid)).getD { pid := pid }

theorem Merged.nil : Merged [] :=
  ⟨List.Pairwise.nil, fun _ h => nomatch h⟩

theorem rowFor_cons_self {r : Row} {pid : Pid} (h : r.pid = pid) (rows : List Row) :
    rowFor pid (r :: rows) = r := by
  simp [rowFor, h]

theorem rowFor_cons_of_ne {r : Row} {pid : Pid} (h : r.pid ≠ pid) (rows : List Row) :
    rowFor pid (r :: rows) = rowFor pid rows := by
  simp [rowFor, h]

theorem rowFor_of_notMem {pid : Pid} {rows : List Row} (h : pid ∉ rows.map (·.pid)) :
    rowFor pid rows = { pid := pid } := by
  induction rows with
  | nil => rfl
  | cons r rows ih =>
    simp only [List.map_cons, List.mem_cons, not_or] at h
    rw [rowFor_cons_of_ne (Ne.symm h.1), ih h.2]

theorem rowFor_of_mem {rows : List Row} (h : Merged rows) {r : Row} (hr : r ∈ rows) :
    rowFor r.pid rows = r := by
  obtain ⟨hasc, -⟩ := h
  induction rows with
  | nil => cases hr
  | cons first rows ih =>
    rw [List.map_cons, List.pairwise_cons] at hasc
    rcases List.mem_cons.1 hr with rfl | hr
    · exact rowFor_cons_self rfl rows
    · have hlt := hasc.1 r.pid (List.mem_map_of_mem hr)
      rw [rowFor_cons_of_ne (UInt32.ne_of_lt hlt), ih hr hasc.2]

section Touch

variable {pid : Pid} {f : Row → Row} {rows : List Row}

theorem mem_touch_go (hf : ∀ r, (f r).pid = r.pid) (q : Pid) :
    q ∈ (touch.go pid f rows).map (·.pid) ↔ q = pid ∨ q ∈ rows.map (·.pid) := by
  induction rows with
  | nil => simp [touch.go, hf]
  | cons r rows ih =>
    rw [touch.go]
    split
    · simp [hf]
    · split
      · next heq => simp [hf, heq]
      · simp only [List.map_cons, List.mem_cons, ih]
        exact or_left_comm

theorem ascending_touch_go (hf : ∀ r, (f r).pid = r.pid) (h : (rows.map (·.pid)).Pairwise (· < ·)) :
    ((touch.go pid f rows).map (·.pid)).Pairwise (· < ·) := by
  induction rows with
  | nil => simp [touch.go]
  | cons r rows ih =>
    have hcons := h
    rw [List.map_cons, List.pairwise_cons] at hcons
    obtain ⟨hfirst, hrest⟩ := hcons
    rw [touch.go]
    split
    · next hlt =>
      rw [List.map_cons, List.pairwise_cons, hf]
      refine ⟨?_, h⟩
      rw [List.map_cons, List.forall_mem_cons]
      exact ⟨hlt, fun q hq => UInt32.lt_trans hlt (hfirst q hq)⟩
    · split
      · rw [List.map_cons, hf, ← List.map_cons]
        exact h
      · next hnlt hne =>
        have hgt : r.pid < pid := UInt32.lt_of_le_of_ne (UInt32.not_lt.1 hnlt) (Ne.symm hne)
        rw [List.map_cons, List.pairwise_cons]
        refine ⟨fun q hq => ?_, ih hrest⟩
        rcases (mem_touch_go hf q).1 hq with rfl | hq
        · exact hgt
        · exact hfirst q hq

theorem rowFor_touch_go (hf : ∀ r, (f r).pid = r.pid) (h : (rows.map (·.pid)).Pairwise (· < ·)) (q : Pid) :
    rowFor q (touch.go pid f rows) = if q = pid then f (rowFor q rows) else rowFor q rows := by
  induction rows with
  | nil =>
    by_cases hq : q = pid
    · subst hq; rw [touch.go, rowFor_cons_self (by rw [hf]), if_pos rfl]; rfl
    · rw [touch.go, rowFor_cons_of_ne (by rw [hf]; exact Ne.symm hq), if_neg hq]
  | cons r rows ih =>
    have hcons := h
    rw [List.map_cons, List.pairwise_cons] at hcons
    rw [touch.go]
    split
    · next hlt =>
      by_cases hq : q = pid
      · subst hq
        -- the first row is already beyond `q`, and so are those after it
        have hnew : q ∉ (r :: rows).map (·.pid) := by
          rw [List.map_cons, List.mem_cons, not_or]
          exact ⟨UInt32.ne_of_lt hlt, fun hmem => UInt32.lt_asymm hlt (hcons.1 q hmem)⟩
        rw [rowFor_cons_self (by rw [hf]), if_pos rfl, rowFor_of_notMem hnew]
      · rw [rowFor_cons_of_ne (by rw [hf]; exact Ne.symm hq), if_neg hq]
    · split
      · next heq =>
        by_cases hq : q = pid
        · subst hq
          rw [rowFor_cons_self (by rw [hf, heq]), if_pos rfl, rowFor_cons_self heq.symm]
        · have hne : r.pid ≠ q := fun h => hq (by rw [heq, h])
          rw [rowFor_cons_of_ne (by rwa [hf]), if_neg hq, rowFor_cons_of_ne hne]
      · next hne =>
        by_cases hq : q = r.pid
        · subst hq
          rw [rowFor_cons_self rfl, if_neg (Ne.symm hne), rowFor_cons_self rfl]
        · rw [rowFor_cons_of_ne (Ne.symm hq), rowFor_cons_of_ne (Ne.symm hq), ih hcons.2]

/-- An edit puts the process among the rows, unless it is the idle task. -/
theorem mem_touch (hf : ∀ r, (f r).pid = r.pid) (q : Pid) :
    q ∈ (touch pid f rows).map (·.pid) ↔ (q = pid ∧ q ≠ 0) ∨ q ∈ rows.map (·.pid) := by
  unfold touch
  split
  · next hzero =>
    subst hzero
    simp
  · next hpid =>
    rw [mem_touch_go hf]
    refine or_congr_left ⟨fun hq => ⟨hq, hq ▸ hpid⟩, And.left⟩

theorem Merged.touch (h : Merged rows) (hf : ∀ r, (f r).pid = r.pid) : Merged (touch pid f rows) where
  ascending := by
    unfold SchedLedger.touch
    split
    · exact h.ascending
    · exact ascending_touch_go hf h.ascending
  real r hr := by
    rcases (mem_touch hf r.pid).1 (List.mem_map_of_mem hr) with ⟨-, hne⟩ | hmem
    · exact hne
    · obtain ⟨r', hr', heq⟩ := List.mem_map.1 hmem
      exact heq ▸ h.real r' hr'

theorem rowFor_touch (h : Merged rows) (hf : ∀ r, (f r).pid = r.pid) {q : Pid} (hq : q ≠ 0) :
    rowFor q (touch pid f rows) = if q = pid then f (rowFor q rows) else rowFor q rows := by
  unfold touch
  split
  · next hzero => rw [if_neg (hzero ▸ hq)]
  · exact rowFor_touch_go hf h.ascending q

end Touch

/-- What is to be done to the row of one process. -/
structure Edit where
  pid : Pid
  change : Row → Row
  pid_change : ∀ r, (change r).pid = r.pid

/-- What the edits of a process make of its row. -/
def Edit.along (pid : Pid) (edits : List Edit) (r : Row) : Row :=
  (edits.filter (·.pid = pid)).foldl (fun r e => e.change r) r

def Edit.all (edits : List Edit) (rows : List Row) : List Row :=
  edits.foldl (fun rows e => touch e.pid e.change rows) rows

section Edits

variable {rows : List Row}

theorem Merged.edits (h : Merged rows) (edits : List Edit) : Merged (Edit.all edits rows) := by
  induction edits generalizing rows with
  | nil => exact h
  | cons e edits ih => exact ih (h.touch e.pid_change)

theorem mem_edits (edits : List Edit) (q : Pid) :
    q ∈ (Edit.all edits rows).map (·.pid) ↔
      (q ∈ edits.map (·.pid) ∧ q ≠ 0) ∨ q ∈ rows.map (·.pid) := by
  induction edits generalizing rows with
  | nil => simp [Edit.all]
  | cons e edits ih =>
    rw [Edit.all, List.foldl_cons, ← Edit.all, ih, mem_touch e.pid_change, List.map_cons, List.mem_cons]
    tauto

theorem rowFor_edits (h : Merged rows) (edits : List Edit) {q : Pid} (hq : q ≠ 0) :
    rowFor q (Edit.all edits rows) = Edit.along q edits (rowFor q rows) := by
  induction edits generalizing rows with
  | nil => rfl
  | cons e edits ih =>
    rw [Edit.all, List.foldl_cons, ← Edit.all, ih (h.touch e.pid_change), rowFor_touch h e.pid_change hq]
    by_cases he : q = e.pid
    · simp [Edit.along, he]
    · simp [Edit.along, he, Ne.symm he]

end Edits

namespace Edit

def cpu (e : Extent) (u : CpuUsage) : Edit :=
  ⟨u.pid, .withCpu e u, fun _ => rfl⟩

def faults (c : FaultCount) : Edit :=
  ⟨c.pid, .withFaults c, fun _ => rfl⟩

/-- A handoff concerns the rows of both its ends. -/
def ends (c : HandoffCount) : List Edit :=
  [⟨c.victim, .asVictim c, fun _ => rfl⟩, ⟨c.aggressor, .asAggressor c, fun _ => rfl⟩]

variable {α : Type} {pid : Pid} {r : Row}

theorem along_append (xs ys : List Edit) : along pid (xs ++ ys) r = along pid ys (along pid xs r) := by
  simp [along]

theorem along_cons_self {x : Edit} (h : x.pid = pid) (xs : List Edit) :
    along pid (x :: xs) r = along pid xs (x.change r) := by
  simp [along, h]

theorem along_cons_of_ne {x : Edit} (h : x.pid ≠ pid) (xs : List Edit) :
    along pid (x :: xs) r = along pid xs r := by
  simp [along, h]

theorem mem_flatMap_ends {cs : List HandoffCount} {x : Edit} (h : x ∈ cs.flatMap ends) :
    ∃ c ∈ cs, x.change = .asVictim c ∨ x.change = .asAggressor c := by
  obtain ⟨c, hc, hx⟩ := List.mem_flatMap.1 h
  rcases List.mem_cons.1 hx with rfl | hx
  · exact ⟨c, hc, .inl rfl⟩
  · rw [List.mem_singleton.1 hx]
    exact ⟨c, hc, .inr rfl⟩

theorem along_same {β : Type} (φ : Row → β) {edits : List Edit} (h : ∀ e ∈ edits, ∀ r, φ (e.change r) = φ r) :
    φ (along pid edits r) = φ r := by
  induction edits generalizing r with
  | nil => rfl
  | cons e edits ih =>
    rw [List.forall_mem_cons] at h
    by_cases he : e.pid = pid
    · rw [along_cons_self he, ih h.2, h.1]
    · rw [along_cons_of_ne he, ih h.2]

theorem along_single {edit : α → Edit} {xs : List α} (hdistinct : (xs.map fun x => (edit x).pid).Nodup)
    {x : α} (hx : x ∈ xs) (hpid : (edit x).pid = pid) : along pid (xs.map edit) r = (edit x).change r := by
  induction xs with
  | nil => cases hx
  | cons y ys ih =>
    rw [List.map_cons, List.nodup_cons] at hdistinct
    rw [List.map_cons]
    rcases List.mem_cons.1 hx with rfl | hx
    · have hothers : ∀ y ∈ ys, (edit y).pid ≠ pid := fun y hy heq =>
        hdistinct.1 (List.mem_map.2 ⟨y, hy, heq.trans hpid.symm⟩)
      rw [along_cons_self hpid, along, List.filter_eq_nil_iff.2 (by simpa using hothers)]
      rfl
    · have hne : (edit y).pid ≠ pid := fun heq =>
        hdistinct.1 (List.mem_map.2 ⟨x, hx, hpid.trans heq.symm⟩)
      rw [along_cons_of_ne hne, ih hdistinct.2 hx]

theorem along_keeps {P : Row → Prop} {edits : List Edit} (h : ∀ e ∈ edits, ∀ r, P r → P (e.change r))
    (hr : P r) : P (along pid edits r) := by
  induction edits generalizing r with
  | nil => exact hr
  | cons e edits ih =>
    rw [List.forall_mem_cons] at h
    by_cases he : e.pid = pid
    · rw [along_cons_self he]
      exact ih h.2 (h.1 r hr)
    · rw [along_cons_of_ne he]
      exact ih h.2 hr

theorem along_set (φ : Row → UInt64) (value : α → UInt64) {edit : α → Edit}
    (h : ∀ x r, φ ((edit x).change r) = value x) {xs : List α}
    (hdistinct : (xs.map fun x => (edit x).pid).Nodup) (hr : φ r = 0) :
    φ (along pid (xs.map edit) r) = sumOver (fun x => (edit x).pid = pid) value xs := by
  induction xs with
  | nil => exact hr
  | cons x xs ih =>
    have hcons := hdistinct
    rw [List.map_cons, List.nodup_cons] at hcons
    by_cases hx : (edit x).pid = pid
    · have hothers : ∀ y ∈ xs, (edit y).pid ≠ pid := fun y hy heq =>
        hcons.1 (List.mem_map.2 ⟨y, hy, heq.trans hx.symm⟩)
      rw [along_single hdistinct List.mem_cons_self hx, h, sumOver_cons_of_pos (by simpa using hx),
        sumOver_eq_zero (by simpa using hothers), add_zero]
    · rw [List.map_cons, along_cons_of_ne hx, ih hcons.2, sumOver_cons_of_neg (by simpa using hx)]

theorem along_ends (φ : Row → UInt64) (lost won : HandoffCount → UInt64)
    (hv : ∀ c r, φ (Row.asVictim c r) = φ r + lost c) (ha : ∀ c r, φ (Row.asAggressor c r) = φ r + won c)
    (cs : List HandoffCount) :
    φ (along pid (cs.flatMap ends) r) =
      φ r + sumOver (·.victim = pid) lost cs + sumOver (·.aggressor = pid) won cs := by
  induction cs generalizing r with
  | nil => simp [along, sumOver]
  | cons c cs ih =>
    have hends : φ (along pid (ends c) r) =
        φ r + sumOver (·.victim = pid) lost [c] + sumOver (·.aggressor = pid) won [c] := by
      by_cases hvic : c.victim = pid <;> by_cases hagg : c.aggressor = pid <;>
        simp [along, ends, sumOver, hvic, hagg, hv, ha, add_assoc]
    rw [List.flatMap_cons, along_append, ih, hends, ← List.singleton_append (l := cs), sumOver_append,
      sumOver_append]
    ac_rfl

end Edit

namespace Reading

/-- The edits that a reading amounts to. -/
def edits (e : Extent) (r : Reading) : List Edit :=
  r.cpu.map (.cpu e) ++ r.faults.map .faults ++ r.handoffs.flatMap Edit.ends

theorem map_pid_edits (e : Extent) (r : Reading) :
    (r.edits e).map (·.pid) =
      r.cpu.map (·.pid) ++ r.faults.map (·.pid) ++ r.handoffs.flatMap fun c => [c.victim, c.aggressor] := by
  simp [edits, Edit.cpu, Edit.faults, Edit.ends, List.map_flatMap, Function.comp_def]

theorem counts_eq_edits (e : Extent) (r : Reading) : r.counts e = Edit.all (r.edits e) [] := by
  simp only [counts, edits, Edit.all, List.foldl_append, List.foldl_map, List.foldl_flatMap, Edit.ends,
    List.foldl_cons, List.foldl_nil, Edit.cpu, Edit.faults]

theorem merged_counts (e : Extent) (r : Reading) : Merged (r.counts e) := by
  rw [counts_eq_edits]
  exact Merged.nil.edits _

/-- Every process that the tables mention has a row, but for the idle task. -/
theorem mem_pids_counts (e : Extent) (r : Reading) (pid : Pid) :
    pid ∈ (r.counts e).map (·.pid) ↔ pid ∈ (r.edits e).map (·.pid) ∧ pid ≠ 0 := by
  rw [counts_eq_edits, mem_edits]
  simp

theorem eq_along_of_mem_counts {e : Extent} {r : Reading} {row : Row} (h : row ∈ r.counts e) :
    row = Edit.along row.pid (r.edits e) { pid := row.pid } := by
  have hrow := rowFor_of_mem (r.merged_counts e) h
  rw [counts_eq_edits, rowFor_edits Merged.nil _ ((r.merged_counts e).real row h)] at hrow
  exact hrow.symm

/-- The processor time that a reading has for a process. -/
def timeOf (r : Reading) (pid : Pid) : UInt64 :=
  sumOver (·.pid = pid) CpuUsage.ns r.cpu

def faultsOf (r : Reading) (pid : Pid) : UInt64 :=
  sumOver (·.pid = pid) FaultCount.faults r.faults

def preemptedOf (r : Reading) (pid : Pid) : UInt64 :=
  sumOver (·.victim = pid) HandoffCount.count r.handoffs

def preemptsOf (r : Reading) (pid : Pid) : UInt64 :=
  sumOver (·.aggressor = pid) HandoffCount.count r.handoffs

end Reading

/-- The figures of a row are those of a reading. -/
structure Row.Shows (row : Row) (r : Reading) : Prop where
  cpuNs : row.cpuNs = r.timeOf row.pid
  faults : row.faults = r.faultsOf row.pid
  preempted : row.preempted = r.preemptedOf row.pid
  preemptsOthers : row.preemptsOthers = r.preemptsOf row.pid

namespace Reading

theorem shows_of_mem_counts {e : Extent} {r : Reading} (hcpu : (r.cpu.map (·.pid)).Nodup)
    (hfaults : (r.faults.map (·.pid)).Nodup) {row : Row} (h : row ∈ r.counts e) : row.Shows r := by
  have hrow := eq_along_of_mem_counts h
  -- each figure is made by one of the three lists of edits, and the other two leave it alone
  rw [edits, Edit.along_append, Edit.along_append] at hrow
  constructor
  · refine (congrArg Row.cpuNs hrow).trans ?_
    rw [Edit.along_same Row.cpuNs, Edit.along_same Row.cpuNs]
    · exact Edit.along_set Row.cpuNs CpuUsage.ns (fun _ _ => rfl) hcpu rfl
    · simp [Edit.faults, Row.withFaults]
    · intro x hx row
      obtain ⟨c, -, hx | hx⟩ := Edit.mem_flatMap_ends hx <;> rw [hx] <;> rfl
  · refine (congrArg Row.faults hrow).trans ?_
    rw [Edit.along_same Row.faults]
    · refine Edit.along_set Row.faults FaultCount.faults (fun _ _ => rfl) hfaults ?_
      exact Edit.along_same Row.faults (by simp [Edit.cpu, Row.withCpu])
    · intro x hx row
      obtain ⟨c, -, hx | hx⟩ := Edit.mem_flatMap_ends hx <;> rw [hx] <;> rfl
  · refine (congrArg Row.preempted hrow).trans ?_
    rw [Edit.along_ends Row.preempted HandoffCount.count (fun _ => 0) (fun _ _ => rfl)
      (fun _ _ => (add_zero _).symm), Edit.along_same Row.preempted (by simp [Edit.faults, Row.withFaults]),
      Edit.along_same Row.preempted (by simp [Edit.cpu, Row.withCpu]), sumOver_zero, zero_add, add_zero]
    rfl
  · refine (congrArg Row.preemptsOthers hrow).trans ?_
    rw [Edit.along_ends Row.preemptsOthers (fun _ => 0) HandoffCount.count (fun _ _ => (add_zero _).symm)
      (fun _ _ => rfl), Edit.along_same Row.preemptsOthers (by simp [Edit.faults, Row.withFaults]),
      Edit.along_same Row.preemptsOthers (by simp [Edit.cpu, Row.withCpu]), sumOver_zero, add_zero, zero_add]
    rfl

theorem mem_pids_rows {e : Extent} {resident : List (Pid × UInt64)} {memory : UInt64} {r : Reading}
    {pid : Pid} :
    pid ∈ (r.rows e resident memory).map (·.pid) ↔ pid ∈ (r.edits e).map (·.pid) ∧ pid ≠ 0 := by
  rw [rows, List.map_map, ← mem_pids_counts]
  rfl

theorem shows_of_mem_rows {e : Extent} {resident : List (Pid × UInt64)} {memory : UInt64} {r : Reading}
    (hcpu : (r.cpu.map (·.pid)).Nodup) (hfaults : (r.faults.map (·.pid)).Nodup) {row : Row}
    (h : row ∈ r.rows e resident memory) : row.Shows r ∧ row.finding = row.classify := by
  obtain ⟨counted, hcounted, rfl⟩ := List.mem_map.1 h
  obtain ⟨hcpuNs, hfaulted, hpreempted, hpreempts⟩ := shows_of_mem_counts hcpu hfaults hcounted
  exact ⟨⟨hcpuNs, hfaulted, hpreempted, hpreempts⟩, rfl⟩

end Reading

theorem orText_of_text {old : String} (h : old ≠ "") (new : String) : orText old new = old :=
  if_neg h

/-- The row tells what the entry says, of the group only if the entry has one. -/
structure Row.Tells (u : CpuUsage) (row : Row) : Prop where
  comm : row.comm = u.comm
  ns : row.cpuNs = u.ns
  group : u.group ≠ "" → row.group = u.group

namespace Reading

variable {e : Extent} {r : Reading} {row : Row} {u : CpuUsage}

/-- What an entry with a name says is not overwritten by other tables. -/
theorem tells_of_mem_counts (hcpu : (r.cpu.map (·.pid)).Nodup) (hrow : row ∈ r.counts e) (hu : u ∈ r.cpu)
    (hpid : u.pid = row.pid) (hname : u.comm ≠ "") : row.Tells u := by
  have hsingle : Edit.along row.pid (r.cpu.map (.cpu e)) { pid := row.pid } =
      Row.withCpu e u { pid := row.pid } := Edit.along_single hcpu hu hpid
  rw [eq_along_of_mem_counts hrow, edits, Edit.along_append, Edit.along_append, hsingle]
  refine Edit.along_keeps (fun x hx row h => ?_)
    (Edit.along_keeps (fun x hx row h => ?_) ⟨rfl, rfl, fun _ => rfl⟩)
  · have hcomm : row.comm ≠ "" := by rwa [h.comm]
    obtain ⟨c, -, hx | hx⟩ := Edit.mem_flatMap_ends hx <;> rw [hx] <;>
      exact ⟨(orText_of_text hcomm _).trans h.comm, h.ns, h.group⟩
  · obtain ⟨c, -, rfl⟩ := List.mem_map.1 hx
    have hcomm : row.comm ≠ "" := by rwa [h.comm]
    refine ⟨(orText_of_text hcomm _).trans h.comm, h.ns, fun hgroup => ?_⟩
    have hold : row.group ≠ "" := by rwa [h.group hgroup]
    exact (orText_of_text hold _).trans (h.group hgroup)

variable {resident : List (Pid × UInt64)} {memory : UInt64}

theorem tells_of_mem_rows (hcpu : (r.cpu.map (·.pid)).Nodup) (hrow : row ∈ r.rows e resident memory)
    (hu : u ∈ r.cpu) (hpid : u.pid = row.pid) (hname : u.comm ≠ "") : row.Tells u := by
  obtain ⟨counted, hcounted, rfl⟩ := List.mem_map.1 hrow
  obtain ⟨hcomm, hns, hgroup⟩ := tells_of_mem_counts hcpu hcounted hu hpid hname
  exact ⟨hcomm, hns, hgroup⟩

end Reading

end SchedLedger
