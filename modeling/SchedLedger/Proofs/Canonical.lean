import SchedLedger.Proofs.Handoff
import SchedLedger.Proofs.Ranking

/-! Canonical rankings. The rows of a ranking stand in a strict order of their values and keys, which leaves only
one place for each: the order in which a table keeps its entries does not show, and a limit takes a first part of
the ranking without one. -/

namespace SchedLedger

variable {α ρ : Type}

/-- A ranking of some rows, by its limit: without one it holds each of them once, in order, and otherwise the first
of these, as many as the limit asks for. -/
structure Canonical (rows : List ρ) (before : ρ → ρ → Prop) (ranking : UInt64 → List ρ) : Prop where
  perm : (ranking 0).Perm rows
  ordered : (ranking 0).Pairwise before
  first : ∀ limit, limit ≠ 0 → ranking limit = (ranking 0).take (min limit.toNat rows.length)

/-- In a strict order there is only one ranking of some rows, however they are listed. -/
theorem Canonical.eq_of_perm {rows rows' : List ρ} {before : ρ → ρ → Prop} {ranking ranking' : UInt64 → List ρ}
    (h : Canonical rows before ranking) (h' : Canonical rows' before ranking') (hperm : rows.Perm rows')
    (hstrict : ∀ a b, before a b → ¬ before b a) : ranking = ranking' := by
  have hall : ranking 0 = ranking' 0 :=
    (h.perm.trans (hperm.trans h'.perm.symm)).eq_of_pairwise
      (fun a b _ _ hab hba => absurd hba (hstrict a b hab)) h.ordered h'.ordered
  funext limit
  by_cases hlimit : limit = 0
  · rw [hlimit, hall]
  · rw [h.first limit hlimit, h'.first limit hlimit, hall, hperm.length_eq]

theorem canonical_ranked (value : α → UInt64) (key : α → Nat) (label : α → ρ) {before : ρ → ρ → Prop}
    {entries : List α} (hnodup : (entries.map key).Nodup)
    (hbefore : ∀ a b, value b < value a ∨ (value a = value b ∧ key a < key b) → before (label a) (label b)) :
    Canonical ((entries.filter fun e => value e ≠ 0).map label) before
      fun limit => (keepFirst limit (ranked value key entries)).map label := by
  have hperm : (ranked value key entries).Perm (entries.filter fun e => value e ≠ 0) := by
    refine ranked_perm.trans (.of_eq (List.filter_congr fun e _ => ?_))
    simp only [gt_iff_lt, UInt64.pos_iff_ne_zero]
  refine ⟨hperm.map label, ?_, fun limit hlimit => ?_⟩
  · have hkeys : (ranked value key entries).Pairwise fun a b => key a ≠ key b :=
      List.pairwise_map.1 (nodup_ranked hnodup)
    refine List.pairwise_map.2 (((pairwise_ranked value key entries).and hkeys).imp fun {a b} hab => ?_)
    obtain ⟨hrank, hne⟩ := hab
    rw [ranksBefore_iff] at hrank
    refine hbefore a b (hrank.imp UInt64.lt_iff_toNat_lt.2 fun heq => ⟨UInt64.toNat_inj.1 heq.1, ?_⟩)
    exact Nat.lt_of_le_of_ne heq.2 hne
  · have hall : keepFirst 0 (ranked value key entries) = ranked value key entries := rfl
    rw [keepFirst_eq_take hlimit, hall, List.map_take, ← (hperm.map label).length_eq]
    exact List.take_eq_take_min

theorem Table.nodup_toNat_keys {ν : Type} {t : Table Pid ν} (h : t.keys.Nodup) :
    (t.entries.map fun e => e.1.toNat).Nodup := by
  have hkeys := h.map (f := UInt32.toNat) fun _ _ => UInt32.toNat_inj.1
  rwa [keys, List.map_map] at hkeys

/-! The three rankings -/

/-- A row stands before one of a smaller value, and of the same value before one of a greater number. -/
def CpuUsage.Before (a b : CpuUsage) : Prop :=
  b.ns < a.ns ∨ (a.ns = b.ns ∧ a.pid < b.pid)

def FaultCount.Before (a b : FaultCount) : Prop :=
  b.faults < a.faults ∨ (a.faults = b.faults ∧ a.pid < b.pid)

def HandoffCount.Before (a b : HandoffCount) : Prop :=
  b.count < a.count ∨
    (a.count = b.count ∧ (a.victim < b.victim ∨ (a.victim = b.victim ∧ a.aggressor < b.aggressor)))

theorem CpuUsage.Before.asymm {a b : CpuUsage} (h : a.Before b) : ¬ b.Before a := by
  simp only [Before, UInt64.lt_iff_toNat_lt, UInt32.lt_iff_toNat_lt, ← UInt64.toNat_inj] at h ⊢
  omega

theorem FaultCount.Before.asymm {a b : FaultCount} (h : a.Before b) : ¬ b.Before a := by
  simp only [Before, UInt64.lt_iff_toNat_lt, UInt32.lt_iff_toNat_lt, ← UInt64.toNat_inj] at h ⊢
  omega

theorem HandoffCount.Before.asymm {a b : HandoffCount} (h : a.Before b) : ¬ b.Before a := by
  simp only [Before, UInt64.lt_iff_toNat_lt, UInt32.lt_iff_toNat_lt, ← UInt64.toNat_inj, ← UInt32.toNat_inj]
    at h ⊢
  omega

/-- Pairs in the order of their words stand by victim first, and then by aggressor. -/
theorem Handoff.halves_of_lt {a b : Handoff} (h : a.raw.toNat < b.raw.toNat) :
    a.victim < b.victim ∨ (a.victim = b.victim ∧ a.aggressor < b.aggressor) := by
  simp only [UInt32.lt_iff_toNat_lt, ← UInt32.toNat_inj, toNat_victim, toNat_aggressor]
  omega

namespace Ledger

def cpuRows (l : Ledger) : List CpuUsage :=
  (l.cpu.entries.filter fun e => e.2.ns ≠ 0).map fun e => ⟨e.1, e.2.comm.lossy, e.2.group.lossy, e.2.ns⟩

def handoffRows (l : Ledger) (name : Pid → String) : List HandoffCount :=
  (l.handoffs.entries.filter fun e => e.2 ≠ 0).map fun e =>
    ⟨e.1.victim, name e.1.victim, e.1.aggressor, name e.1.aggressor, e.2⟩

def faultRows (l : Ledger) (window : Span) (name : Pid → String) : List FaultCount :=
  (l.faults.entries.filter fun e => e.2.faults ≠ 0).map fun e =>
    ⟨e.1, name e.1, e.2.group.lossy, e.2.faults, e.2.faults.toFloat / window.rateSeconds⟩

variable {l : Ledger} (window : Span) (name : Pid → String)

theorem canonical_cpuRanking (h : l.cpu.keys.Nodup) : Canonical l.cpuRows CpuUsage.Before l.cpuRanking :=
  canonical_ranked (fun e : Pid × CpuRecord => e.2.ns) (fun e => e.1.toNat) _ (Table.nodup_toNat_keys h)
    fun _ _ hab => hab.imp_right fun heq => ⟨heq.1, UInt32.lt_iff_toNat_lt.2 heq.2⟩

theorem canonical_handoffRanking (h : l.handoffs.keys.Nodup) :
    Canonical (l.handoffRows name) HandoffCount.Before fun limit => l.handoffRanking limit name := by
  have hkeys := h.map (f := fun pair : Handoff => pair.raw.toNat) fun a b hab => by
    cases a
    cases b
    exact congrArg Handoff.mk (UInt64.toNat_inj.1 hab)
  rw [Table.keys, List.map_map] at hkeys
  exact canonical_ranked (fun e : Handoff × UInt64 => e.2) (fun e => e.1.raw.toNat) _ hkeys
    fun _ _ hab => hab.imp_right fun heq => ⟨heq.1, Handoff.halves_of_lt heq.2⟩

theorem canonical_faultRanking (h : l.faults.keys.Nodup) :
    Canonical (l.faultRows window name) FaultCount.Before fun limit => l.faultRanking limit window name :=
  canonical_ranked (fun e : Pid × FaultRecord => e.2.faults) (fun e => e.1.toNat) _ (Table.nodup_toNat_keys h)
    fun _ _ hab => hab.imp_right fun heq => ⟨heq.1, UInt32.lt_iff_toNat_lt.2 heq.2⟩

/-- Each ranking of a ledger whose tables have no key twice is canonical: it holds the rows of just the entries
with a value, once each, strictly by falling value and then by rising numbers, and a limit takes the first of them.
A ledger whose table lists the same entries in another order has the same ranking. -/
theorem canonical_rankings (l : Ledger) (hcpu : l.cpu.keys.Nodup) (hhandoffs : l.handoffs.keys.Nodup)
    (hfaults : l.faults.keys.Nodup) (window : Span) (name : Pid → String) :
    (Canonical l.cpuRows CpuUsage.Before l.cpuRanking ∧
      ∀ l' : Ledger, l'.cpu.entries.Perm l.cpu.entries → ∀ limit, l'.cpuRanking limit = l.cpuRanking limit) ∧
    (Canonical (l.handoffRows name) HandoffCount.Before (fun limit => l.handoffRanking limit name) ∧
      ∀ l' : Ledger, l'.handoffs.entries.Perm l.handoffs.entries →
        ∀ limit, l'.handoffRanking limit name = l.handoffRanking limit name) ∧
    (Canonical (l.faultRows window name) FaultCount.Before (fun limit => l.faultRanking limit window name) ∧
      ∀ l' : Ledger, l'.faults.entries.Perm l.faults.entries →
        ∀ limit, l'.faultRanking limit window name = l.faultRanking limit window name) := by
  refine ⟨⟨canonical_cpuRanking hcpu, fun l' hperm => congrFun ?_⟩,
    ⟨canonical_handoffRanking name hhandoffs, fun l' hperm => congrFun ?_⟩,
    canonical_faultRanking window name hfaults, fun l' hperm => congrFun ?_⟩
  · have hcpu' := (hperm.map Prod.fst).nodup_iff.2 hcpu
    exact (canonical_cpuRanking hcpu').eq_of_perm (canonical_cpuRanking hcpu)
      ((hperm.filter _).map _) fun _ _ => CpuUsage.Before.asymm
  · have hhandoffs' := (hperm.map Prod.fst).nodup_iff.2 hhandoffs
    exact (canonical_handoffRanking name hhandoffs').eq_of_perm (canonical_handoffRanking name hhandoffs)
      ((hperm.filter _).map _) fun _ _ => HandoffCount.Before.asymm
  · have hfaults' := (hperm.map Prod.fst).nodup_iff.2 hfaults
    exact (canonical_faultRanking window name hfaults').eq_of_perm (canonical_faultRanking window name hfaults)
      ((hperm.filter _).map _) fun _ _ => FaultCount.Before.asymm

/-- A ledger in which values are equal, entries have no value, and a pair stands beside itself turned round. -/
def tied : Ledger where
  slots := .ofUnits 1
  cpu := ⟨"pid_stats", 8, [(9, ⟨5, .empty, .empty⟩), (4, ⟨0, .empty, .empty⟩), (2, ⟨5, .empty, .empty⟩)], 3, 0⟩
  handoffs := ⟨"contention", 8, [(⟨0x900000002⟩, 1), (⟨0x200000009⟩, 1), (⟨0x200000004⟩, 1)], 3, 0⟩
  faults := ⟨"faults", 8, [(9, ⟨1, .empty⟩), (0xFFFFFFFF, ⟨3, .empty⟩)], 2, 0⟩
  lookups := 0

def tied.turned : Ledger :=
  { tied with
    cpu := { tied.cpu with entries := tied.cpu.entries.reverse }
    handoffs := { tied.handoffs with entries := tied.handoffs.entries.reverse }
    faults := { tied.faults with entries := tied.faults.entries.reverse } }

theorem canonical_rankings_of_tied :
    tied.cpu.keys.Nodup ∧ tied.handoffs.keys.Nodup ∧ tied.faults.keys.Nodup ∧
      ((tied.cpuRanking 0).map (·.pid)).Perm [9, 2] ∧
      tied.turned.cpuRanking 1 = (tied.cpuRanking 0).take 1 ∧
      tied.turned.handoffRanking 2 (fun _ => "") = (tied.handoffRanking 0 fun _ => "").take 2 ∧
      tied.turned.faultRanking 9 ⟨0⟩ (fun _ => "") = (tied.faultRanking 0 ⟨0⟩ fun _ => "").take 2 := by
  have hcpu : tied.cpu.keys.Nodup := by decide
  have hhandoffs : tied.handoffs.keys.Nodup := by decide
  have hfaults : tied.faults.keys.Nodup := by decide
  obtain ⟨⟨hc, hcpuTurned⟩, ⟨hh, hhandoffsTurned⟩, hf, hfaultsTurned⟩ :=
    canonical_rankings tied hcpu hhandoffs hfaults ⟨0⟩ fun _ => ""
  refine ⟨hcpu, hhandoffs, hfaults, hc.perm.map (·.pid), ?_, ?_, ?_⟩
  · rw [hcpuTurned tied.turned (List.reverse_perm _)]
    exact hc.first 1 (by decide)
  · rw [hhandoffsTurned tied.turned (List.reverse_perm _)]
    exact hh.first 2 (by decide)
  · rw [hfaultsTurned tied.turned (List.reverse_perm _)]
    exact hf.first 9 (by decide)

end Ledger

end SchedLedger
