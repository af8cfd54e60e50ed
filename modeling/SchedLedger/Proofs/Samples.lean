import SchedLedger.Proofs.PlainNumbers
import SchedLedger.Render.Exposition

/-! What a report exposes. Each row with a value and each handoff has one sample of its own, as long as no process and
no handoff stands twice. Samples carry their values as floats, so a printed value is the value itself up to 2^53, and
beyond that one that is read as the same float. -/

namespace SchedLedger

open Decimal

section Numbers

variable {n : Nat}

theorem nearestWhole_lt_of_signed (h : n < 2 ^ 63) : nearestWhole n < 10 ^ 19 := by
  have hle := nearestWhole_le n
  have hspare : spareDigits n ≤ 10 := by
    rcases Nat.eq_zero_or_pos n with rfl | hpos
    · decide
    · have hlog : n.log2 < 63 := (Nat.log2_lt hpos.ne').2 h
      rw [spareDigits]
      omega
  have hunit : 2 ^ spareDigits n ≤ 2 ^ 10 := Nat.pow_le_pow_right (by decide) hspare
  omega

theorem exists_numberText (h : n < 2 ^ 63) :
    ∃ p, Sample.numberText (Float.ofNat n) = digits p ∧ Float.ofNat p = Float.ofNat n ∧ (n ≤ 2 ^ 53 → p = n) := by
  by_cases hzero : n = 0
  · subst hzero
    exact ⟨0, by decide +kernel, rfl, fun _ => rfl⟩
  -- the last number that is sure to be printed as itself is too large for `eq_of_fits`
  by_cases hfirst : n = 2 ^ 53
  · subst hfirst
    exact ⟨2 ^ 53, by decide +kernel, rfl, fun _ => rfl⟩
  obtain ⟨x, hshape, hstands⟩ := exists_stands hzero (by omega)
  have hpoint : Sample.plainStyle.wholePoint = false := rfl
  have hlayout : Sample.numberText (Float.ofNat n) = layout Sample.plainStyle x := by
    rw [Sample.numberText, hshape]
  rcases Nat.lt_or_ge n (2 ^ 53) with hsmall | hlarge
  · rw [nearestWhole_of_fits hsmall] at hstands
    obtain ⟨p, hp, hnear⟩ := exists_layout hstands (by omega) hpoint (by decide) (by decide)
    obtain rfl := hnear.eq_of_fits hstands hsmall
    exact ⟨p, hlayout.trans hp, rfl, fun _ => rfl⟩
  · obtain ⟨p, hp, hnear⟩ := exists_layout hstands (nearestWhole_lt_of_signed h) hpoint (by decide) (by decide)
    obtain ⟨hvalue, hlargep⟩ := hnear.nearestWhole_eq hstands (le_nearestWhole hlarge)
    exact ⟨p, hlayout.trans hp, ofNat_eq_of_nearestWhole_eq hlarge hlargep hvalue, fun hle => by omega⟩

end Numbers

section Recording

variable {taken samples : List Sample} {s : Sample}

theorem record_of_notMem (h : s.labels ∉ taken.map (·.labels)) : Family.record taken s = taken ++ [s] := by
  rw [Family.record, List.filter_eq_self.2]
  intro t ht
  exact decide_eq_true fun heq => h (heq ▸ List.mem_map_of_mem ht)

theorem nodup_record (h : (taken.map (·.labels)).Nodup) : ((Family.record taken s).map (·.labels)).Nodup := by
  rw [Family.record, List.map_append]
  refine (h.sublist (List.filter_sublist.map _)).append (List.nodup_singleton _) ?_
  intro labels hold hnew
  obtain ⟨t, ht, rfl⟩ := List.mem_map.1 hold
  rw [List.map_singleton, List.mem_singleton] at hnew
  exact of_decide_eq_true (List.mem_filter.1 ht).2 hnew

theorem nodup_foldl_record (h : (taken.map (·.labels)).Nodup) :
    ((samples.foldl Family.record taken).map (·.labels)).Nodup := by
  induction samples generalizing taken with
  | nil => exact h
  | cons s samples ih => exact ih (nodup_record h)

theorem nodup_gather (name help : String) (samples : List Sample) :
    ((Family.gather name help samples).samples.map (·.labels)).Nodup := by
  refine ((List.mergeSort_perm _ _).map _).nodup_iff.2 (nodup_foldl_record ?_)
  exact List.nodup_nil

/-- Samples with different labels are all kept. -/
theorem foldl_record_of_nodup (h : ((taken ++ samples).map (·.labels)).Nodup) :
    samples.foldl Family.record taken = taken ++ samples := by
  induction samples generalizing taken with
  | nil => exact (List.append_nil taken).symm
  | cons s samples ih =>
    have hsplit : taken ++ s :: samples = taken ++ [s] ++ samples := by simp
    have hnew : s.labels ∉ taken.map (·.labels) := by
      intro hmem
      rw [List.map_append] at h
      exact List.disjoint_of_nodup_append h hmem (List.mem_map_of_mem List.mem_cons_self)
    rw [List.foldl_cons, record_of_notMem hnew, ih (hsplit ▸ h), hsplit]

/-- One sample for each of the things that have different keys, if their labels tell the keys. -/
theorem gather_perm {α κ : Type} {key : α → κ} {sample : α → Sample} {xs : List α} (hkeys : (xs.map key).Nodup)
    (hlabels : ∀ a b, (sample a).labels = (sample b).labels → key a = key b) (name help : String) :
    (Family.gather name help (xs.map sample)).samples.Perm (xs.map sample) := by
  have hnodup : (([] ++ xs.map sample).map Sample.labels).Nodup := by
    rw [List.nil_append, List.map_map]
    refine (List.nodup_map_iff_inj_on hkeys.of_map).2 ?_
    intro a ha b hb heq
    exact List.inj_on_of_nodup_map hkeys ha hb (hlabels a b heq)
  rw [Family.gather, foldl_record_of_nodup hnodup]
  exact List.mergeSort_perm _ _

end Recording

/-- The sample of the time of a row. -/
def Row.cpuSample (row : Row) : Sample :=
  ⟨[("cgroup", row.group), ("comm", row.comm), ("pid", toString row.pid)], row.cpuNs⟩

def Row.faultSample (row : Row) : Sample :=
  ⟨[("cgroup", row.group), ("pid", toString row.pid)], row.faults⟩

def HandoffCount.sample (c : HandoffCount) : Sample :=
  ⟨[("aggressor", toString c.aggressor), ("victim", toString c.victim)], c.count⟩

def Sample.lineOf (name : String) (s : Sample) (value : List Char) : List Char :=
  let labels := s.labels.map fun l => l.1.toList ++ '=' :: '"' :: labelText l.2 ++ ['"']
  name.toList ++ '\x7b' :: [','].intercalate labels ++ '\x7d' :: ' ' :: value ++ ['\n']

/-- A sample is printed with this value. -/
def Sample.Prints (name : String) (s : Sample) (p : Nat) : Prop :=
  s.text name = s.lineOf name (digits p)

instance (name : String) (s : Sample) (p : Nat) : Decidable (s.Prints name p) :=
  inferInstanceAs (Decidable (_ = _))

/-- The value of a sample, as far as it fits into a signed word. -/
def Sample.capped (s : Sample) : Nat :=
  min s.value.toNat (2 ^ 63 - 1)

theorem Sample.exists_prints (name : String) (s : Sample) :
    ∃ p, s.Prints name p ∧ Float.ofNat p = Float.ofNat s.capped ∧ (s.capped ≤ 2 ^ 53 → p = s.capped) := by
  obtain ⟨p, htext, hfloat, hexact⟩ := exists_numberText (n := s.capped) (by rw [capped]; omega)
  exact ⟨p, congrArg (s.lineOf name) htext, hfloat, hexact⟩

namespace Report

variable (r : Report)

/-- The samples that a report has under a name. -/
def samplesOf (name : String) : List Sample :=
  (r.families.filter fun f => f.name = name).flatMap (·.samples)

theorem samplesOf_name {f : Family} (h : f ∈ r.families) : r.samplesOf f.name = f.samples := by
  simp only [families, List.mem_cons, List.not_mem_nil, or_false] at h
  rcases h with rfl | rfl | rfl | rfl | rfl <;>
    simp [samplesOf, families, handoffFamily, cpuFamily, faultFamily, droppedFamily, entriesFamily, Family.gather]

theorem samplesOf_cpu : r.samplesOf "hotspot_cpu_time_ns" = r.cpuFamily.samples :=
  r.samplesOf_name (.tail _ (.head _))

theorem samplesOf_faults : r.samplesOf "hotspot_page_faults" = r.faultFamily.samples :=
  r.samplesOf_name (.tail _ (.tail _ (.head _)))

theorem samplesOf_handoffs : r.samplesOf "hotspot_contention_total" = r.handoffFamily.samples :=
  r.samplesOf_name (.head _)

theorem toString_pid_inj {a b : Pid} (h : toString a = toString b) : a = b :=
  UInt32.toNat_inj.1 (Nat.repr_inj.1 h)

theorem nodup_filter_pids (h : (r.rows.map (·.pid)).Nodup) (p : Row → Bool) :
    ((r.rows.filter p).map (·.pid)).Nodup :=
  h.sublist (List.filter_sublist.map _)

theorem cpuFamily_perm (h : (r.rows.map (·.pid)).Nodup) :
    r.cpuFamily.samples.Perm ((r.rows.filter fun row => row.cpuNs > 0).map Row.cpuSample) := by
  refine gather_perm (r.nodup_filter_pids h _) ?_ _ _
  intro a b heq
  simp only [List.cons.injEq, Prod.mk.injEq] at heq
  exact toString_pid_inj heq.2.2.1.2

theorem faultFamily_perm (h : (r.rows.map (·.pid)).Nodup) :
    r.faultFamily.samples.Perm ((r.rows.filter fun row => row.faults > 0).map Row.faultSample) := by
  refine gather_perm (r.nodup_filter_pids h _) ?_ _ _
  intro a b heq
  simp only [List.cons.injEq, Prod.mk.injEq] at heq
  exact toString_pid_inj heq.2.1.2

theorem handoffFamily_perm (h : (r.handoffs.map fun c => (c.victim, c.aggressor)).Nodup) :
    r.handoffFamily.samples.Perm (r.handoffs.map HandoffCount.sample) := by
  refine gather_perm h ?_ _ _
  intro a b heq
  simp only [List.cons.injEq, Prod.mk.injEq] at heq
  exact Prod.ext (toString_pid_inj heq.2.1.2) (toString_pid_inj heq.1.2)

theorem nodup_labels {f : Family} (h : f ∈ r.families) : (f.samples.map (·.labels)).Nodup := by
  simp only [families, List.mem_cons, List.not_mem_nil, or_false] at h
  rcases h with rfl | rfl | rfl | rfl | rfl <;> exact nodup_gather ..

/-- The samples of a report are those of its rows with a value and of its handoffs, each once, and each is printed
with a whole number that is read as the float of the value: with the value itself up to 2^53. -/
theorem samples_of_report (hpids : (r.rows.map (·.pid)).Nodup)
    (hpairs : (r.handoffs.map fun c => (c.victim, c.aggressor)).Nodup) :
    (r.samplesOf "hotspot_cpu_time_ns").Perm ((r.rows.filter fun row => row.cpuNs > 0).map Row.cpuSample) ∧
      (r.samplesOf "hotspot_page_faults").Perm ((r.rows.filter fun row => row.faults > 0).map Row.faultSample) ∧
      (r.samplesOf "hotspot_contention_total").Perm (r.handoffs.map HandoffCount.sample) ∧
      ∀ f ∈ r.families, (f.samples.map (·.labels)).Nodup ∧ ∀ s ∈ f.samples,
        ∃ p, s.Prints f.name p ∧ Float.ofNat p = Float.ofNat s.capped ∧ (s.capped ≤ 2 ^ 53 → p = s.capped) := by
  rw [samplesOf_cpu, samplesOf_faults, samplesOf_handoffs]
  exact ⟨r.cpuFamily_perm hpids, r.faultFamily_perm hpids, r.handoffFamily_perm hpairs,
    fun f hf => ⟨r.nodup_labels hf, fun s _ => s.exists_prints f.name⟩⟩

end Report

/-- Two processes of one name and group, one with faults and one with more time than a float tells apart. -/
def longRun : Report where
  index := 0
  start := 0
  window := 1000000000
  units := 1
  topK := 5
  hideKernel := false
  groupFilter := none
  focus := none
  rows := [{ pid := 1, comm := "api", group := "app", faults := 12 },
    { pid := 2, comm := "api", group := "app", cpuNs := 9007199254740993 }]
  cpu := []
  handoffs := [⟨1, "api", 2, "api", 150⟩, ⟨2, "api", 1, "api", 3⟩]
  cpuCost := []
  usage := []

namespace longRun

theorem samples_exposed : (longRun.rows.map (·.pid)).Nodup ∧
    (longRun.handoffs.map fun c => (c.victim, c.aggressor)).Nodup ∧
      (longRun.samplesOf "hotspot_cpu_time_ns").Perm
        [⟨[("cgroup", "app"), ("comm", "api"), ("pid", "2")], 9007199254740993⟩] ∧
      (longRun.samplesOf "hotspot_page_faults").Perm [⟨[("cgroup", "app"), ("pid", "1")], 12⟩] ∧
      (longRun.samplesOf "hotspot_contention_total").Perm
        [⟨[("aggressor", "2"), ("victim", "1")], 150⟩, ⟨[("aggressor", "1"), ("victim", "2")], 3⟩] := by
  obtain ⟨hcpu, hfaults, hhandoffs, -⟩ := longRun.samples_of_report (by decide) (by decide)
  exact ⟨by decide, by decide, hcpu, hfaults, hhandoffs⟩

/-- The float of 2^53 + 1 is that of 2^53. -/
theorem time_rounded : (longRun.rows.map (·.pid)).Nodup ∧
    (longRun.handoffs.map fun c => (c.victim, c.aggressor)).Nodup ∧
      ∃ s ∈ longRun.samplesOf "hotspot_cpu_time_ns", s.capped = 9007199254740993 ∧
        s.Prints "hotspot_cpu_time_ns" 9007199254740992 ∧ ¬ s.Prints "hotspot_cpu_time_ns" s.capped := by
  have hmem : Row.cpuSample { pid := 2, comm := "api", group := "app", cpuNs := 9007199254740993 } ∈
      longRun.samplesOf "hotspot_cpu_time_ns" := by
    rw [Report.samplesOf_cpu]
    exact (longRun.cpuFamily_perm (by decide)).mem_iff.2 List.mem_cons_self
  exact ⟨by decide, by decide, _, hmem, by decide +kernel, by decide +kernel, by decide +kernel⟩

end longRun
end SchedLedger
