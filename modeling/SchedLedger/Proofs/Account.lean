import SchedLedger.Proofs.Journal
import SchedLedger.Proofs.Ledger
import SchedLedger.Proofs.Table

/-! Accounts: each table of a ledger carries what its journal enters. One step keeps this, whichever way
its upsert goes, and so a run keeps it from a fresh ledger on. -/

namespace SchedLedger

variable {ε κ ν : Type} [DecidableEq κ]

/-- `t'` is `t` after an upsert that puts `amount` on the load of a key. -/
def Table.Booked (load : ν → UInt64) (k : κ) (amount : UInt64) (t t' : Table κ ν) : Prop :=
  ∃ (σ : Type) (s : σ) (init : σ → ν × σ) (update : ν → σ → ν × σ),
    t' = (t.upsertWith k init update s).2.1 ∧ load (init s).1 = amount ∧
      ∀ v, load (update v s).1 = load v + amount

/-- The table holds the first keys entered since the last reset, each with all that was entered under it,
and has counted the entries that it refused. -/
structure Journal.Carried (j : Journal ε κ) (load : ν → UInt64) (n : Nat) (t : Table κ ν)
    (history : List Action) : Prop where
  capacity : t.capacity.toNat = n
  keys : t.keys = admitted n ((j.sinceReset history).map j.key)
  occupied : t.occupied = t.size
  load : ∀ k v, t.get? k = some v → load v = j.total k (j.sinceReset history)
  dropped : t.dropped = .ofNat (j.refusals n history)

namespace Journal.Carried

variable {j : Journal ε κ} {load : ν → UInt64} {n : Nat} {t t' : Table κ ν} {past : List Action} {a : Action}
  {e : ε}

theorem nodup_keys (h : j.Carried load n t past) : t.keys.Nodup :=
  h.keys ▸ nodup_admitted n _

theorem size_le (h : j.Carried load n t past) : t.size ≤ n := by
  rw [← Table.length_keys, h.keys]
  exact length_admitted_le n _

theorem room_iff (h : j.Carried load n t past) :
    t.occupied < t.capacity.toNat ↔ (admitted n ((j.sinceReset past).map j.key)).length < n := by
  rw [h.occupied, h.capacity, ← Table.length_keys, h.keys]

theorem new (name : String) (capacity : UInt64) :
    j.Carried load capacity.toNat (Table.new name capacity) [] where
  capacity := rfl
  keys := by simp
  occupied := rfl
  load k v hv := by simp at hv
  dropped := rfl

theorem clear (h : j.Carried load n t past) : j.Carried load n t.clear.2 (.reset :: past) where
  capacity := h.capacity
  keys := by simp
  occupied := by rw [Table.occupied_clear, h.occupied, Nat.sub_self, Table.size_clear]
  load k v hv := by simp at hv
  dropped := by rw [refusals_of_none j (j.enter?_reset past), Table.dropped_clear, h.dropped]

theorem idle (h : j.Carried load n t past) (ha : a.isReset = false) (he : j.enter? past a = none) :
    j.Carried load n t (a :: past) where
  capacity := h.capacity
  keys := by simpa [sinceReset_cons j ha, he] using h.keys
  occupied := h.occupied
  load k v hv := by simpa [sinceReset_cons j ha, he] using h.load k v hv
  dropped := by rw [refusals_of_none j he, h.dropped]

theorem put (h : j.Carried load n t past) (he : j.enter? past a = some e)
    {v w : ν} (hv : t.get? (j.key e) = some v) (hw : load w = load v + j.amount e) :
    j.Carried load n (t.put (j.key e) w) (a :: past) := by
  have hmem : j.key e ∈ admitted n ((j.sinceReset past).map j.key) :=
    h.keys ▸ Table.mem_keys_of_get? hv
  have hkeys : admitted n (((j.sinceReset past) ++ [e]).map j.key) =
      admitted n ((j.sinceReset past).map j.key) := by
    rw [List.map_append, List.map_singleton, admitted_concat_of_mem hmem]
  refine ⟨h.capacity, ?_, ?_, ?_, ?_⟩
  · rw [Table.keys_put, j.sinceReset_cons_some he, hkeys, h.keys]
  · rw [Table.size_put]; exact h.occupied
  · intro k u hu
    rw [j.sinceReset_cons_some he, total_concat]
    by_cases hk : j.key e = k
    · subst hk
      rw [Table.get?_put_self (Table.mem_keys_of_get? hv)] at hu
      cases hu
      rw [if_pos rfl, hw, h.load _ _ hv]
    · rw [Table.get?_put_of_ne (Ne.symm hk)] at hu
      rw [if_neg hk, h.load _ _ hu]
  · rw [refusals_of_admitted j he (hkeys ▸ hmem)]
    exact h.dropped

/-- A new key is admitted with the entry as its first one, since nothing was entered under it before. -/
theorem append (h : j.Carried load n t past) (he : j.enter? past a = some e)
    (hk : j.key e ∉ t.keys) (hroom : t.occupied < t.capacity.toNat) {w : ν} (hw : load w = j.amount e) :
    j.Carried load n (t.append (j.key e) w) (a :: past) := by
  have hroom' := h.room_iff.1 hroom
  have hnew : j.key e ∉ admitted n ((j.sinceReset past).map j.key) := h.keys ▸ hk
  have hkeys : admitted n (((j.sinceReset past) ++ [e]).map j.key) =
      admitted n ((j.sinceReset past).map j.key) ++ [j.key e] := by
    rw [List.map_append, List.map_singleton, admitted_concat_of_room hnew hroom']
  -- while there was room every key was admitted, so a key that was not was never entered
  have hzero : j.total (j.key e) (j.sinceReset past) = 0 :=
    j.total_eq_zero fun hmem => hnew (mem_admitted_of_room hmem hroom')
  refine ⟨h.capacity, ?_, ?_, ?_, ?_⟩
  · rw [Table.keys_append, j.sinceReset_cons_some he, hkeys, h.keys]
  · simp only [Table.append, Table.size, List.length_append, List.length_singleton]
    rw [h.occupied, Table.size]
  · intro k u hu
    rw [j.sinceReset_cons_some he, total_concat]
    by_cases hke : j.key e = k
    · subst hke
      rw [Table.get?_append_self hk] at hu
      cases hu
      rw [if_pos rfl, hw, hzero, zero_add]
    · rw [Table.get?_append_of_ne (Ne.symm hke)] at hu
      rw [if_neg hke, h.load _ _ hu]
  · have hin : j.key e ∈ admitted n (((j.sinceReset past) ++ [e]).map j.key) := by
      rw [hkeys]; exact List.mem_append_right _ (List.mem_singleton_self _)
    rw [refusals_of_admitted j he hin]
    exact h.dropped

theorem refuse (h : j.Carried load n t past) (he : j.enter? past a = some e)
    (hk : j.key e ∉ t.keys) (hfull : ¬ t.occupied < t.capacity.toNat) :
    j.Carried load n t.refuse (a :: past) := by
  have hfull' : ¬ (admitted n ((j.sinceReset past).map j.key)).length < n :=
    fun hlt => hfull (h.room_iff.2 hlt)
  have hkeys : admitted n (((j.sinceReset past) ++ [e]).map j.key) =
      admitted n ((j.sinceReset past).map j.key) := by
    rw [List.map_append, List.map_singleton, admitted_concat_of_full hfull']
  have hnew : j.key e ∉ admitted n ((j.sinceReset past).map j.key) := h.keys ▸ hk
  refine ⟨h.capacity, ?_, h.occupied, ?_, ?_⟩
  · rw [j.sinceReset_cons_some he, hkeys]
    exact h.keys
  · intro k u hu
    have hin : k ∈ t.keys := Table.mem_keys_of_get? (t := t) hu
    have hke : j.key e ≠ k := fun hek => hk (hek ▸ hin)
    rw [j.sinceReset_cons_some he, total_concat, if_neg hke]
    exact h.load k u hu
  · rw [refusals_of_refused j he (hkeys ▸ hnew), UInt64.ofNat_add, ← h.dropped]
    rfl

theorem booked (h : j.Carried load n t past) (he : j.enter? past a = some e)
    (hb : t.Booked load (j.key e) (j.amount e) t') : j.Carried load n t' (a :: past) := by
  obtain ⟨σ, s, init, update, rfl, hinit, hupdate⟩ := hb
  rcases t.upsertWith_cases (j.key e) init update s with ⟨v, hv, hu⟩ | ⟨hk, hroom, hu⟩ | ⟨hk, hfull, hu⟩
  · rw [hu]; exact h.put he hv (hupdate v)
  · rw [hu]; exact h.append he hk hroom hinit
  · rw [hu]; exact h.refuse he hk hfull

end Journal.Carried

structure Account (ε κ ν : Type) where
  journal : Journal ε κ
  table : Ledger → Table κ ν
  load : ν → UInt64
  capacity : Capacities → UInt64

namespace Account

def time (units : Nat) : Account Charge Pid CpuRecord :=
  ⟨.time units, Ledger.cpu, CpuRecord.ns, Capacities.cpu⟩

def handoffs : Account Handoff Handoff UInt64 :=
  ⟨.handoffs, Ledger.handoffs, id, Capacities.handoffs⟩

def faults : Account Pid Pid FaultRecord :=
  ⟨.faults, Ledger.faults, FaultRecord.faults, Capacities.faults⟩

/-- What an action does to the table of an account: a reset clears it, an entry is booked, and any other
action leaves it alone. -/
inductive Follows (A : Account ε κ ν) (past : List Action) (t t' : Table κ ν) : Action → Prop
  | reset (h : t' = t.clear.2) : Follows A past t t' .reset
  | idle {a : Action} (ha : a.isReset = false) (he : A.journal.enter? past a = none) (h : t' = t) :
    Follows A past t t' a
  | booked {a : Action} {e : ε} (he : A.journal.enter? past a = some e)
    (h : t.Booked A.load (A.journal.key e) (A.journal.amount e) t') : Follows A past t t' a

abbrev after (r : Resolver) (units : Nat) (caps : Capacities) (history : List Action) : Ledger :=
  (Ledger.new units caps).run r history.reverse

theorem after_reverse (r : Resolver) (units : Nat) (caps : Capacities) (actions : List Action) :
    after r units caps actions.reverse = (Ledger.new units caps).run r actions := by
  rw [after, List.reverse_reverse]

theorem after_append (r : Resolver) (units : Nat) (caps : Capacities) (recent past : List Action) :
    after r units caps (recent ++ past) = (after r units caps past).run r recent.reverse := by
  rw [after, List.reverse_append, Ledger.run_append]

/-- On this many units the table carries the journal after every history. -/
def Kept (A : Account ε κ ν) (units : Nat) : Prop :=
  ∀ r caps history,
    A.journal.Carried A.load (A.capacity caps).toNat (A.table (after r units caps history)) history

/-- An account whose table follows every single action is kept. -/
theorem kept_of_follows {A : Account ε κ ν} {units : Nat}
    (hnew : ∀ caps, ∃ name, A.table (.new units caps) = .new name (A.capacity caps))
    (hstep : ∀ r caps past a,
      A.Follows past (A.table (after r units caps past)) (A.table (after r units caps (a :: past))) a) :
    A.Kept units := by
  intro r caps history
  induction history with
  | nil =>
    obtain ⟨name, hname⟩ := hnew caps
    change A.journal.Carried _ _ (A.table (.new units caps)) []
    rw [hname]
    exact .new name (A.capacity caps)
  | cons a past ih =>
    cases hstep r caps past a with
    | reset h => rw [h]; exact ih.clear
    | idle ha he h => rw [h]; exact ih.idle ha he
    | booked he h => exact ih.booked he h

/-- What a kept account says of a key: nothing unless it was admitted, and then all that was entered. -/
theorem Kept.get?_after {A : Account ε κ ν} {units : Nat} (h : A.Kept units) (r : Resolver)
    (caps : Capacities) (history : List Action) (k : κ) :
    ((A.table (after r units caps history)).get? k).map A.load =
      if k ∈ admitted (A.capacity caps).toNat ((A.journal.sinceReset history).map A.journal.key) then
        some (A.journal.total k (A.journal.sinceReset history))
      else none := by
  have hc := h r caps history
  rw [← hc.keys]
  split
  · next hk =>
    obtain ⟨v, hv⟩ := Table.exists_get?_of_mem_keys hk
    rw [hv, Option.map_some, hc.load k v hv]
  · next hk => rw [Table.get?_eq_none_iff.2 hk, Option.map_none]

theorem slots_after (r : Resolver) (units : Nat) (caps : Capacities) (history : List Action)
    (unit : UnitId) :
    (after r units caps history).slots.get? unit =
      if unit.toNat < units then some ((switchesOn unit history).head?.getD ⟨0, 0⟩) else none := by
  induction history with
  | nil => exact Slots.get?_ofUnits units unit
  | cons a past ih =>
    rw [after, Ledger.run_reverse_cons, switchesOn_cons]
    cases a with
    | fault ctx =>
      rw [Ledger.apply, Ledger.fault, Ledger.slots_countFault]
      exact ih
    | reset => exact ih
    | switch ctx u ts prev next =>
      rw [Ledger.apply, Ledger.switch, Ledger.slots_charge, Ledger.slots_countHandoff, Slots.get?_set, ih]
      by_cases hu : u = unit
      · by_cases hin : unit.toNat < units <;> simp [Action.slot?, hu, hin]
      · simp [Action.slot?, hu]

theorem slots_run (r : Resolver) (units : Nat) (caps : Capacities) (actions : List Action) (unit : UnitId) :
    ((Ledger.new units caps).run r actions).slots.get? unit =
      if unit.toNat < units then some ((switchesOn unit actions).getLast?.getD ⟨0, 0⟩) else none := by
  rw [← after_reverse, slots_after, switchesOn_reverse, List.head?_reverse]

/-- A switch charges whom its slot held, which is whom the last switch on the unit let in. -/
theorem time_follows (r : Resolver) (units : Nat) (caps : Capacities) (past : List Action) (a : Action) :
    (time units).Follows past (after r units caps past).cpu (after r units caps (a :: past)).cpu a := by
  rw [after, after, Ledger.run_reverse_cons]
  cases a with
  | reset => exact .reset rfl
  | fault ctx => exact .idle rfl rfl (Ledger.cpu_countFault ..)
  | switch ctx u ts prev next =>
    have hslot := slots_after r units caps past u
    set l := (Ledger.new units caps).run r past.reverse
    have hidle (h : ∀ held, l.slots.get? u = some held → held.entity = 0) :
        (l.apply r (.switch ctx u ts prev next)).cpu = l.cpu := by
      rw [Ledger.apply, Ledger.switch, Ledger.cpu_charge_of_idle, Ledger.cpu_countHandoff]
      rwa [Ledger.slots_countHandoff]
    -- a unit that does not exist has no slot, and a fresh slot holds the idle task: neither charges anybody
    by_cases hin : u.toNat < units
    · rw [after, if_pos hin] at hslot
      cases hlast : (switchesOn u past).head? with
      | none =>
        refine .idle rfl (by simp [time, Journal.time, hlast]) (hidle fun held hheld => ?_)
        rw [hslot, hlast] at hheld
        cases hheld
        rfl
      | some held =>
        rw [hlast] at hslot
        by_cases hzero : held.entity = 0
        · refine .idle rfl (by simp [time, Journal.time, hlast, Charge.between?, hzero])
            (hidle fun other hother => ?_)
          rw [hslot] at hother
          cases hother
          exact hzero
        · have henter : (time units).journal.enter? past (.switch ctx u ts prev next) =
              some ⟨u, held.entity, ts - held.since⟩ := by
            simp [time, Journal.time, hin, hlast, Charge.between?, hzero]
          refine .booked henter ⟨Nat, l.lookups, Ledger.openCpu r ctx (ts - held.since),
            Ledger.extendCpu r ctx (ts - held.since), ?_, rfl, fun v => rfl⟩
          have hheld : (l.countHandoff prev next).slots.get? u = some held := by
            rw [Ledger.slots_countHandoff, hslot]; rfl
          rw [Ledger.apply, Ledger.switch, Ledger.cpu_charge_of_held _ _ _ hheld hzero,
            Ledger.cpu_countHandoff, Ledger.lookups_countHandoff]
          rfl
    · rw [after, if_neg hin] at hslot
      refine .idle rfl (by simp [time, Journal.time, hin]) (hidle fun held hheld => ?_)
      rw [hslot] at hheld
      cases hheld

theorem handoffs_follows (r : Resolver) (units : Nat) (caps : Capacities) (past : List Action)
    (a : Action) :
    handoffs.Follows past (after r units caps past).handoffs (after r units caps (a :: past)).handoffs
      a := by
  rw [after, after, Ledger.run_reverse_cons]
  cases a with
  | reset => exact .reset rfl
  | fault ctx => exact .idle rfl rfl (Ledger.handoffs_countFault ..)
  | switch ctx u ts prev next =>
    set l := (Ledger.new units caps).run r past.reverse
    have happly : (l.apply r (.switch ctx u ts prev next)).handoffs =
        (l.countHandoff prev next).handoffs := Ledger.handoffs_charge ..
    rw [happly, Ledger.countHandoff]
    cases hpair : Handoff.ofPair? prev next with
    | none => exact .idle rfl hpair rfl
    | some pair =>
      exact .booked hpair ⟨Unit, (), fun u => (1, u), fun v u => (v + 1, u), rfl, rfl, fun v => rfl⟩

theorem faults_follows (r : Resolver) (units : Nat) (caps : Capacities) (past : List Action) (a : Action) :
    faults.Follows past (after r units caps past).faults (after r units caps (a :: past)).faults a := by
  rw [after, after, Ledger.run_reverse_cons]
  cases a with
  | reset => exact .reset rfl
  | switch ctx u ts prev next =>
    refine .idle rfl rfl ?_
    rw [Ledger.apply, Ledger.switch, Ledger.faults_charge]
    exact Ledger.faults_countHandoff ..
  | fault ctx =>
    set l := (Ledger.new units caps).run r past.reverse
    rw [Ledger.apply, Ledger.fault, Ledger.countFault]
    by_cases hzero : ctx.entity = 0
    · refine .idle rfl ?_ (by rw [if_pos hzero])
      simp [faults, Journal.faults, Action.faulting?, hzero]
    · rw [if_neg hzero]
      refine .booked (e := ctx.entity) ?_ ⟨Nat, l.lookups, Ledger.openFault r ctx,
        Ledger.extendFault r ctx, rfl, rfl, fun v => rfl⟩
      simp [faults, Journal.faults, Action.faulting?, hzero]

theorem time_kept (units : Nat) : (time units).Kept units :=
  kept_of_follows (fun _ => ⟨_, rfl⟩) fun r => time_follows r units

theorem handoffs_kept (units : Nat) : handoffs.Kept units :=
  kept_of_follows (fun _ => ⟨_, rfl⟩) fun r => handoffs_follows r units

theorem faults_kept (units : Nat) : faults.Kept units :=
  kept_of_follows (fun _ => ⟨_, rfl⟩) fun r => faults_follows r units

end Account

theorem Account.Kept.run {A : Account ε κ ν} {units : Nat} (h : A.Kept units) (r : Resolver) (caps : Capacities)
    (actions : List Action) :
    A.journal.Carried A.load (A.capacity caps).toNat (A.table ((Ledger.new units caps).run r actions))
      actions.reverse :=
  after_reverse r units caps actions ▸ h r caps actions.reverse

namespace Ledger

variable (r : Resolver) (units : Nat) (caps : Capacities) (actions : List Action)

theorem carried_cpu : (Journal.time units).Carried CpuRecord.ns caps.cpu.toNat
    ((Ledger.new units caps).run r actions).cpu actions.reverse :=
  (Account.time_kept units).run r caps actions

theorem carried_handoffs : Journal.handoffs.Carried id caps.handoffs.toNat
    ((Ledger.new units caps).run r actions).handoffs actions.reverse :=
  (Account.handoffs_kept units).run r caps actions

theorem carried_faults : Journal.faults.Carried FaultRecord.faults caps.faults.toNat
    ((Ledger.new units caps).run r actions).faults actions.reverse :=
  (Account.faults_kept units).run r caps actions

end Ledger
end SchedLedger
