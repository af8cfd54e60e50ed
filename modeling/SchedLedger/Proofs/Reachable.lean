import SchedLedger.Proofs.Counts
import SchedLedger.Proofs.Records

/-! The states that a ledger can reach. Whatever it is told, in whatever order, its tables hold real entities
only and no more of them than there is room for, and every text in them is terminated and every group is named. -/

namespace SchedLedger

/-- A group that can be shown: a terminated text that is not empty. -/
structure Padded.Named (group : GroupPath) : Prop where
  terminated : group.Terminated
  nonempty : group.isEmpty = false

namespace Resolver

/-- The walk either leaves a name or the sentinel stands in for one. -/
theorem named_settled (n : Nat) (ctx : Context) (out : GroupPath) :
    (leafThenParent n ctx out).settled.Named where
  terminated := by
    rw [settled_leafThenParent]
    exact Padded.terminated_write (by decide) _ _
  nonempty := neverEmpty_leafThenParent.isEmpty_settled n ctx out

theorem named_refresh {out : GroupPath} (h : out.Named) (ctx : Context) (n : Nat) :
    (leafThenParent.refresh ctx out n).1.Named := by
  rw [refresh_of_text h.nonempty]
  exact h

end Resolver

/-- The name of the task is written into a buffer as any text is, or the buffer is cleared. -/
def Context.Writes (ctx : Context) : Prop :=
  ∀ out, (∃ name, ctx.copyComm out = out.write name) ∨ ctx.copyComm out = out.clear

theorem Context.Writes.named (pid : Pid) (name : Option Bytes) (task : Option Task) :
    (Context.named pid name task).Writes := by
  intro out
  cases name with
  | some bytes => exact .inl ⟨bytes, rfl⟩
  | none => exact .inr rfl

theorem Context.Writes.terminated {ctx : Context} (h : ctx.Writes) (out : Comm) : (ctx.copyComm out).Terminated := by
  rcases h out with ⟨name, hname⟩ | hclear
  · rw [hname]
    exact Padded.terminated_write (by decide) _ _
  · rw [hclear]
    exact Padded.terminated_clear (by decide) _

def Action.Writes (a : Action) : Prop :=
  ∀ ctx, a.context? = some ctx → ctx.Writes

structure CpuRecord.WellFormed (pid : Pid) (v : CpuRecord) : Prop where
  real : pid ≠ 0
  comm : v.comm.Terminated
  group : v.group.Named

structure FaultRecord.WellFormed (pid : Pid) (v : FaultRecord) : Prop where
  real : pid ≠ 0
  group : v.group.Named

namespace Ledger

variable {pid : Pid}

theorem wellFormed_openCpu (hne : pid ≠ 0) {ctx : Context} (hctx : ctx.Writes) (ns : UInt64) (n : Nat) :
    (openCpu .leafThenParent ctx ns n).1.WellFormed pid :=
  ⟨hne, hctx.terminated .empty, Resolver.named_settled n ctx .empty⟩

theorem wellFormed_extendCpu {v : CpuRecord} (h : v.WellFormed pid) {ctx : Context} (hctx : ctx.Writes)
    (ns : UInt64) (n : Nat) : (extendCpu .leafThenParent ctx ns v n).1.WellFormed pid := by
  refine ⟨h.real, ?_, Resolver.named_refresh h.group ctx n⟩
  rw [extendCpu]
  split
  · exact hctx.terminated v.comm
  · exact h.comm

theorem wellFormed_openFault (hne : pid ≠ 0) (ctx : Context) (n : Nat) :
    (openFault .leafThenParent ctx n).1.WellFormed pid :=
  ⟨hne, Resolver.named_settled n ctx .empty⟩

theorem wellFormed_extendFault {v : FaultRecord} (h : v.WellFormed pid) (ctx : Context) (n : Nat) :
    (extendFault .leafThenParent ctx v n).1.WellFormed pid :=
  ⟨h.real, Resolver.named_refresh h.group ctx n⟩

structure Records (l : Ledger) : Prop where
  cpu : ∀ pid v, l.cpu.get? pid = some v → v.WellFormed pid
  faults : ∀ pid v, l.faults.get? pid = some v → v.WellFormed pid

theorem Records.new (units : Nat) (caps : Capacities) : (Ledger.new units caps).Records :=
  ⟨fun _ _ h => (nomatch h), fun _ _ h => (nomatch h)⟩

theorem Records.apply {l : Ledger} (h : l.Records) {a : Action} (ha : a.Writes) :
    (l.apply .leafThenParent a).Records where
  cpu := by
    refine (booking_apply _ l a).forall_cpu h.cpu ?_
    rintro ctx _ _ _ _ _ rfl _ hne ns n
    exact ⟨wellFormed_openCpu hne (ha ctx rfl) ns n, fun _ hv => wellFormed_extendCpu hv (ha ctx rfl) ns n⟩
  faults := (booking_apply _ l a).forall_faults h.faults fun ctx _ hne n =>
    ⟨wellFormed_openFault hne ctx n, fun _ hv => wellFormed_extendFault hv ctx n⟩

theorem Records.run {l : Ledger} (h : l.Records) {actions : List Action} (hactions : ∀ a ∈ actions, a.Writes) :
    (l.run .leafThenParent actions).Records := by
  induction actions generalizing l with
  | nil => exact h
  | cons a actions ih =>
    rw [List.forall_mem_cons] at hactions
    exact ih (h.apply hactions.1) hactions.2

/-- A ledger as every run leaves it: its entries are well formed, and no table has more of them than its
capacity. -/
structure WellFormed (caps : Capacities) (l : Ledger) : Prop where
  cpu : ∀ e ∈ l.cpu.entries, e.2.WellFormed e.1
  faults : ∀ e ∈ l.faults.entries, e.2.WellFormed e.1
  handoffs : ∀ e ∈ l.handoffs.entries, e.1.victim ≠ 0 ∧ e.1.aggressor ≠ 0
  cpuRoom : l.cpu.size ≤ caps.cpu.toNat
  faultsRoom : l.faults.size ≤ caps.faults.toNat
  handoffsRoom : l.handoffs.size ≤ caps.handoffs.toNat

end Ledger

/-- Every state that a ledger reaches is well formed, as long as names are written like other texts. -/
theorem wellFormed_of_run (units : Nat) (caps : Capacities) (actions : List Action)
    (hwrites : ∀ a ∈ actions, a.Writes) : ((Ledger.new units caps).run .leafThenParent actions).WellFormed caps := by
  have hrecords := (Ledger.Records.new units caps).run hwrites
  have hcpu := Ledger.carried_cpu .leafThenParent units caps actions
  have hfaults := Ledger.carried_faults .leafThenParent units caps actions
  have hhandoffs := Ledger.carried_handoffs .leafThenParent units caps actions
  refine ⟨fun e he => ?_, fun e he => ?_, fun e he => ?_, hcpu.size_le, hfaults.size_le, hhandoffs.size_le⟩
  · exact hrecords.cpu e.1 e.2 (Table.get?_of_mem_entries hcpu.nodup_keys he)
  · exact hrecords.faults e.1 e.2 (Table.get?_of_mem_entries hfaults.nodup_keys he)
  · have hpair := Ledger.ofPair?_of_mem_handoffs .leafThenParent units caps actions (List.mem_map_of_mem he)
    obtain ⟨hvictim, haggressor, -⟩ := Handoff.ofPair?_eq_some_iff.1 hpair
    exact ⟨hvictim, haggressor⟩

/-- A name with a NUL and none at all, in tables with room for one entry each: the last run of 6 is refused. -/
theorem wellFormed_of_run_with_refusal :
    let five : Context := .named 5 (some [0x61, 0, 0x62]) none
    let six : Context := .named 6 none (some ⟨some [none, some [0x78]]⟩)
    let actions : List Action :=
      [.switch five 0 0 0 5, .switch five 0 3 5 6, .fault six, .switch six 0 9 6 5, .fault five]
    let l := (Ledger.new 1 ⟨1, 1, 1⟩).run .leafThenParent actions
    (∀ a ∈ actions, a.Writes) ∧ l.cpu.keys = [5] ∧ l.cpu.dropped = 1 ∧ l.faults.keys = [6] ∧
      l.WellFormed ⟨1, 1, 1⟩ := by
  intro five six actions l
  have hwrites : ∀ a ∈ actions, a.Writes := by
    simp only [actions, List.forall_mem_cons, Action.Writes, Action.context?, Option.some.injEq, forall_eq']
    have hfive : five.Writes := Context.Writes.named 5 _ _
    have hsix : six.Writes := Context.Writes.named 6 _ _
    exact ⟨hfive, hfive, hsix, hsix, hfive, fun _ h => nomatch h⟩
  exact ⟨hwrites, by decide, by decide, by decide, wellFormed_of_run 1 ⟨1, 1, 1⟩ actions hwrites⟩

end SchedLedger
