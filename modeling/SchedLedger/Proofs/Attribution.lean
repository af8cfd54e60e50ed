import SchedLedger.Proofs.Account
import SchedLedger.Proofs.Records
import SchedLedger.Proofs.Tasks
import SchedLedger.Replay.Run
import Mathlib.Data.List.Chain

/-! Whose name a record carries. Time is charged to the entity in the slot of a unit, but name and group are
those of the task that the switch says is outgoing; as long as every switch takes over from whom the one before
it let in, these are one task, and every record is named after its own entity. -/

namespace SchedLedger

/-- What a replay tells its ledger: events, each with the context of its declared task, and resets. -/
inductive Replay.Tells (tasks : TaskTable) : Action → Prop
  | event (e : Event) : Tells tasks (Replay.action tasks e)
  | reset : Tells tasks .reset

def Action.passage? (unit : UnitId) : Action → Option (Pid × Pid)
  | .switch _ u _ prev next => if u = unit then some (prev, next) else none
  | .fault _ | .reset => none

/-- On every unit, whoever leaves it at a switch is who came at the one before. -/
def Seamless (actions : List Action) : Prop :=
  ∀ unit, (actions.filterMap (Action.passage? unit)).IsChain fun before now => before.2 = now.1

variable {tasks : TaskTable} {ctx : Context} {unit : UnitId} {ts : UInt64} {prev next : Pid}

namespace Replay

theorem Tells.context_of_switch (h : Tells tasks (.switch ctx unit ts prev next)) :
    ctx = tasks.context prev := by
  generalize ha : Action.switch ctx unit ts prev next = a at h
  cases h with
  | reset => cases ha
  | event e => cases e <;> cases ha; rfl

theorem Tells.context_of_fault (h : Tells tasks (.fault ctx)) : ctx = tasks.context ctx.entity := by
  generalize ha : Action.fault ctx = a at h
  cases h with
  | reset => cases ha
  | event e => cases e <;> cases ha; rfl

end Replay

theorem map_passages (unit : UnitId) (actions : List Action) :
    (actions.filterMap (Action.passage? unit)).map Prod.snd = (switchesOn unit actions).map Slot.entity := by
  rw [switchesOn, List.map_filterMap, List.map_filterMap]
  congr 1
  funext a
  cases a with
  | switch ctx u ts prev next => by_cases h : u = unit <;> simp [Action.passage?, Action.slot?, h]
  | fault ctx => rfl
  | reset => rfl

namespace Seamless

variable {past : List Action} {a : Action}

theorem init (h : Seamless (past ++ [a])) : Seamless past := by
  intro unit
  have hchain := h unit
  rw [List.filterMap_append] at hchain
  exact hchain.left_of_append

theorem entity_eq (h : Seamless (past ++ [.switch ctx unit ts prev next])) {held : Slot}
    (hheld : (switchesOn unit past).getLast? = some held) : held.entity = prev := by
  have hlast : (past.filterMap (Action.passage? unit)).getLast?.map Prod.snd = some held.entity := by
    rw [← List.getLast?_map, map_passages, List.getLast?_map, hheld, Option.map_some]
  obtain ⟨before, hbefore, hentity⟩ := Option.map_eq_some_iff.1 hlast
  have hnow : [Action.switch ctx unit ts prev next].filterMap (Action.passage? unit) = [(prev, next)] := by
    simp [Action.passage?]
  have hchain := h unit
  rw [List.filterMap_append, hnow, List.isChain_append] at hchain
  rw [← hentity]
  exact hchain.2.2 before hbefore (prev, next) rfl

end Seamless

namespace Ledger

variable {ds : List Declaration} {pid : Pid}

/-- The record has the name and the group that its entity was given last. -/
structure NamedAfter (ds : List Declaration) (pid : Pid) (v : CpuRecord) : Prop where
  comm : v.comm = .ofBytes (taskName ds pid)
  group : v.group = .ofBytes (groupName ds pid)

theorem settled_context (hne : pid ≠ 0) (n : Nat) (out : GroupPath) :
    (Resolver.leafThenParent n ((TaskTable.ofDeclarations ds).context pid) out).settled =
      .ofBytes (groupName ds pid) := by
  rw [Resolver.settled_leafThenParent, TaskTable.label_context ds hne]

theorem refresh_context (hne : pid ≠ 0) {out : GroupPath} (hout : out = .ofBytes (groupName ds pid)) (n : Nat) :
    (Resolver.leafThenParent.refresh ((TaskTable.ofDeclarations ds).context pid) out n).1 =
      .ofBytes (groupName ds pid) := by
  cases hempty : out.isEmpty with
  | true => rw [Resolver.refresh_of_isEmpty hempty, settled_context hne]
  | false => rw [Resolver.refresh_of_text hempty, hout]

theorem namedAfter_openCpu (hne : pid ≠ 0) (ns : UInt64) (n : Nat) :
    NamedAfter ds pid
      (openCpu .leafThenParent ((TaskTable.ofDeclarations ds).context pid) ns n).1 :=
  ⟨TaskTable.copyComm_context ds hne .empty, settled_context hne n .empty⟩

theorem NamedAfter.extendCpu {v : CpuRecord} (h : NamedAfter ds pid v) (hne : pid ≠ 0) (ns : UInt64) (n : Nat) :
    NamedAfter ds pid
      (extendCpu .leafThenParent ((TaskTable.ofDeclarations ds).context pid) ns v n).1 := by
  refine ⟨?_, refresh_context hne h.group n⟩
  rw [Ledger.extendCpu]
  split
  · exact TaskTable.copyComm_context ds hne v.comm
  · exact h.comm

variable (units : Nat) (caps : Capacities) {actions : List Action}

theorem faults_attributed (htold : ∀ a ∈ actions, Replay.Tells (.ofDeclarations ds) a) :
    ∀ pid v, ((Ledger.new units caps).run .leafThenParent actions).faults.get? pid = some v →
      v.group = .ofBytes (groupName ds pid) := by
  induction actions using List.reverseRecOn with
  | nil => exact fun pid v hv => nomatch hv
  | append_singleton past a ih =>
    rw [run_concat]
    refine (booking_apply _ _ a).forall_faults
      (ih fun b hb => htold b (List.mem_append_left _ hb)) fun ctx ha hne n => ?_
    subst ha
    rw [(htold _ (List.mem_concat_self)).context_of_fault]
    exact ⟨settled_context hne n .empty, fun v hv => refresh_context hne hv n⟩

theorem cpu_attributed (htold : ∀ a ∈ actions, Replay.Tells (.ofDeclarations ds) a) (h : Seamless actions) :
    ∀ pid v, ((Ledger.new units caps).run .leafThenParent actions).cpu.get? pid = some v →
      NamedAfter ds pid v := by
  induction actions using List.reverseRecOn with
  | nil => exact fun pid v hv => nomatch hv
  | append_singleton past a ih =>
    rw [run_concat]
    refine (booking_apply _ _ a).forall_cpu
      (ih (fun b hb => htold b (List.mem_append_left _ hb)) h.init)
      fun ctx unit ts prev next held ha hheld hne ns n => ?_
    subst ha
    -- the slot holds whom the last switch let in, and that is who leaves now
    have hprev : held.entity = prev := by
      rw [Account.slots_run] at hheld
      split at hheld
      · cases hlast : (switchesOn unit past).getLast? with
        | none =>
          -- before the first switch it is the idle task, which is not charged
          rw [hlast] at hheld
          cases hheld
          exact absurd rfl hne
        | some last =>
          rw [hlast] at hheld
          cases hheld
          exact h.entity_eq hlast
      · cases hheld
    rw [(htold _ (List.mem_concat_self)).context_of_switch, ← hprev]
    exact ⟨namedAfter_openCpu hne ns n, fun v hv => hv.extendCpu hne ns n⟩

end Ledger

/-- Every fault record of a replay has the group that its entity was given by its last declaration, and if each
switch takes over from whom the one before it let in, every CPU record has the name and the group of its own. -/
theorem attribution_of_run (ds : List Declaration) (units : Nat) (caps : Capacities) (actions : List Action)
    (htold : ∀ a ∈ actions, Replay.Tells (.ofDeclarations ds) a) :
    let l := (Ledger.new units caps).run .leafThenParent actions
    (∀ pid v, l.faults.get? pid = some v → v.group.content = (beforeNul (groupName ds pid)).take 63) ∧
    (Seamless actions → ∀ pid v, l.cpu.get? pid = some v →
      v.comm.content = (beforeNul (taskName ds pid)).take 15 ∧
      v.group.content = (beforeNul (groupName ds pid)).take 63) := by
  intro l
  refine ⟨fun pid v hv => ?_, fun h pid v hv => ?_⟩
  · rw [Ledger.faults_attributed units caps htold pid v hv, Padded.content_ofBytes]
  · obtain ⟨hcomm, hgroup⟩ := Ledger.cpu_attributed units caps htold h pid v hv
    rw [hcomm, hgroup, Padded.content_ofBytes, Padded.content_ofBytes]
    exact ⟨rfl, rfl⟩

/-- Task 1 was declared twice and its last group has no name; task 2 was never declared. -/
theorem attribution_of_redeclared :
    let ds : List Declaration :=
      [⟨1, "old", some ["other"], none⟩, ⟨1, "worker", some ["app.slice", ""], none⟩]
    let events : List Event := [.switch 0 0 0 1, .fault 0 1, .switch 0 5 1 2, .switch 0 9 2 0]
    let l := (Ledger.new 1 ⟨8, 8, 8⟩).run .leafThenParent (events.map (Replay.action (.ofDeclarations ds)))
    (∃ v, l.cpu.get? 1 = some v ∧ v.comm.content = Text.Utf8.encode "worker" ∧
      v.group.content = Text.Utf8.encode "app.slice") ∧
    (∃ v, l.cpu.get? 2 = some v ∧ v.comm.content = [] ∧ v.group.content = Padded.sentinel) ∧
    ∃ v, l.faults.get? 1 = some v ∧ v.group.content = Text.Utf8.encode "app.slice" := by
  intro ds events l
  have htold : ∀ a ∈ events.map (Replay.action (.ofDeclarations ds)), Replay.Tells (.ofDeclarations ds) a := by
    rw [List.forall_mem_map]
    exact fun e _ => .event e
  have hseamless : Seamless (events.map (Replay.action (.ofDeclarations ds))) := by
    intro unit
    by_cases hunit : 0 = unit
    · subst hunit
      decide
    · simp [events, Replay.action, Action.passage?, hunit, List.filterMap_cons]
  obtain ⟨hfaults, hcpu⟩ := attribution_of_run ds 1 ⟨8, 8, 8⟩ _ htold
  have hone : (l.cpu.get? 1).isSome := by decide
  have htwo : (l.cpu.get? 2).isSome := by decide
  have hfault : (l.faults.get? 1).isSome := by decide
  obtain ⟨one, hone⟩ := Option.isSome_iff_exists.1 hone
  obtain ⟨two, htwo⟩ := Option.isSome_iff_exists.1 htwo
  obtain ⟨fault, hfault⟩ := Option.isSome_iff_exists.1 hfault
  exact ⟨⟨one, hone, hcpu hseamless 1 one hone⟩, ⟨two, htwo, hcpu hseamless 2 two htwo⟩,
    ⟨fault, hfault, hfaults 1 fault hfault⟩⟩

end SchedLedger
