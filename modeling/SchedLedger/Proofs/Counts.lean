import SchedLedger.Proofs.Handoff
import SchedLedger.Proofs.Ranking
import SchedLedger.Proofs.Totals
import Mathlib.Data.List.DropRight

/-! Counts over whole runs. Handoffs and faults are only counted, so the record of a pair or of an entity is the
number of switches or faults that concern it since the last reset, wherever and whenever they happened; and no
handoff is lost but those that the table counts as refused. -/

namespace SchedLedger

namespace Action

/-- A switch in which `aggressor` takes over from `victim`. -/
def displaces (victim aggressor : Pid) : Action → Bool
  | .switch _ _ _ prev next => prev = victim ∧ next = aggressor
  | .fault _ | .reset => false

def isHandoff : Action → Bool
  | .switch _ _ _ prev next => prev ≠ 0 ∧ next ≠ 0
  | .fault _ | .reset => false

def faultsFor (pid : Pid) : Action → Bool
  | .fault ctx => ctx.entity = pid
  | .switch .. | .reset => false

def isRealFault : Action → Bool
  | .fault ctx => ctx.entity ≠ 0
  | .switch .. | .reset => false

variable {pair : Handoff} {pid : Pid}

theorem handoff?_eq_some_iff (hpair : Handoff.ofPair? pair.victim pair.aggressor = some pair) (a : Action) :
    a.handoff? = some pair ↔ a.displaces pair.victim pair.aggressor = true := by
  obtain ⟨hv, ha, -, -⟩ := Handoff.ofPair?_eq_some_iff.1 hpair
  cases a with
  | switch ctx unit ts prev next =>
    rw [handoff?, Handoff.ofPair?_eq_some_iff, displaces, decide_eq_true_iff]
    constructor
    · rintro ⟨-, -, hprev, hnext⟩
      exact ⟨hprev.symm, hnext.symm⟩
    · rintro ⟨rfl, rfl⟩
      exact ⟨hv, ha, rfl, rfl⟩
  | fault ctx => simp [handoff?, displaces]
  | reset => simp [handoff?, displaces]

theorem isSome_handoff? (a : Action) : a.handoff?.isSome = a.isHandoff := by
  cases a with
  | switch ctx unit ts prev next =>
    by_cases h : prev = 0 ∨ next = 0
    · rcases h with h | h <;> simp [handoff?, isHandoff, Handoff.ofPair?, h]
    · rw [not_or] at h
      simp [handoff?, isHandoff, Handoff.ofPair?, h.1, h.2]
  | fault ctx => rfl
  | reset => rfl

theorem faulting?_eq_some_iff (hpid : pid ≠ 0) (a : Action) :
    a.faulting? = some pid ↔ a.faultsFor pid = true := by
  cases a with
  | fault ctx =>
    rw [faulting?, faultsFor, decide_eq_true_iff]
    constructor
    · intro h
      split at h
      · cases h
      · exact Option.some.inj h
    · rintro rfl
      rw [if_neg hpid]
  | switch ctx unit ts prev next => simp [faulting?, faultsFor]
  | reset => simp [faulting?, faultsFor]

theorem isSome_faulting? (a : Action) : a.faulting?.isSome = a.isRealFault := by
  cases a with
  | fault ctx => by_cases h : ctx.entity = 0 <;> simp [faulting?, isRealFault, h]
  | switch ctx unit ts prev next => rfl
  | reset => rfl

theorem ne_zero_of_faulting? {a : Action} (h : a.faulting? = some pid) : pid ≠ 0 := by
  cases a with
  | fault ctx =>
    rw [faulting?] at h
    split at h
    · cases h
    · next hne =>
      cases h
      exact hne
  | switch ctx unit ts prev next => cases h
  | reset => cases h

end Action

/-- The actions of the window that is open: those since the last reset. -/
def openWindow (actions : List Action) : List Action :=
  actions.rtakeWhile (!·.isReset)

/-- The actions of all windows before it, with the resets that closed them. -/
def closedWindows (actions : List Action) : List Action :=
  actions.rdropWhile (!·.isReset)

namespace Journal

variable {ε κ : Type} {j : Journal ε κ}

theorem sinceReset_eq_filterMap {f : Action → Option ε} (h : ∀ past a, j.enter? past a = f a)
    (actions : List Action) : j.sinceReset actions.reverse = (openWindow actions).filterMap f :=
  j.entries_eq_filterMap h _ _

theorem total_eq_count [DecidableEq κ] (h : ∀ e, j.amount e = 1) (k : κ) (es : List ε) :
    j.total k es = .ofNat ((es.map j.key).count k) := by
  induction es using List.reverseRecOn with
  | nil => rfl
  | append_singleton es e ih =>
    rw [total_concat, ih, h, List.map_append, List.map_singleton, List.count_append, List.count_singleton]
    by_cases hk : j.key e = k
    · rw [if_pos hk, if_pos (by simpa using hk), UInt64.ofNat_add]
      rfl
    · rw [if_neg hk, if_neg (by simpa using hk), Nat.add_zero]

namespace Carried

variable {ν : Type} [DecidableEq κ] {f : Action → Option ε} {load : ν → UInt64} {n : Nat} {t : Table κ ν}
  {actions : List Action} {k : κ}

theorem exists_of_mem_keys (h : j.Carried load n t actions.reverse) (hf : ∀ past a, j.enter? past a = f a)
    (hk : k ∈ t.keys) : ∃ a ∈ openWindow actions, ∃ e, f a = some e ∧ j.key e = k := by
  rw [h.keys, sinceReset_eq_filterMap hf] at hk
  obtain ⟨e, he, hkey⟩ := List.mem_map.1 (mem_of_mem_admitted hk)
  obtain ⟨a, ha, hae⟩ := List.mem_filterMap.1 he
  exact ⟨a, ha, e, hae, hkey⟩

theorem mem_keys_or_full (h : j.Carried load n t actions.reverse) (hf : ∀ past a, j.enter? past a = f a)
    {a : Action} (ha : a ∈ openWindow actions) {e : ε} (he : f a = some e) : j.key e ∈ t.keys ∨ t.size = n := by
  by_cases hroom : t.size < n
  · left
    rw [← Table.length_keys, h.keys, sinceReset_eq_filterMap hf] at hroom
    rw [h.keys, sinceReset_eq_filterMap hf]
    exact mem_admitted_of_room (List.mem_map_of_mem (List.mem_filterMap.2 ⟨a, ha, he⟩)) hroom
  · exact .inr (Nat.le_antisymm h.size_le (Nat.not_lt.1 hroom))

/-- Where each entry counts one, the load of a key is the number of actions that enter under it. -/
theorem load_eq_countP (h : j.Carried load n t actions.reverse) (hf : ∀ past a, j.enter? past a = f a)
    (hone : ∀ e, j.amount e = 1) {v : ν} (hv : t.get? k = some v) {p : Action → Bool}
    (hp : ∀ a, (f a).map j.key = some k ↔ p a = true) :
    load v = .ofNat ((openWindow actions).countP p) := by
  rw [h.load k v hv, total_eq_count hone, sinceReset_eq_filterMap hf, List.map_filterMap, List.count_filterMap]
  congr 1
  apply List.countP_congr
  intro a _
  rw [beq_iff_eq]
  exact hp a

theorem accounted_openWindow {t' : Table κ ν} (h : j.Carried load n t actions.reverse)
    (hclosed : j.Carried load n t' (closedWindows actions).reverse) (hf : ∀ past a, j.enter? past a = f a)
    (hone : ∀ e, j.amount e = 1) {p : Action → Bool} (hp : ∀ a, (f a).isSome = p a)
    (hfits : (openWindow actions).countP p < 2 ^ 64) :
    (openWindow actions).countP p =
      (t.entries.map fun e => (load e.2).toNat).sum + (t.dropped - t'.dropped).toNat := by
  have hlength : (openWindow actions).countP p = (j.sinceReset actions.reverse).length := by
    rw [sinceReset_eq_filterMap hf, List.length_filterMap_eq_countP]
    simp only [hp]
  rw [closedWindows, List.rdropWhile, List.reverse_reverse] at hclosed
  rw [hlength] at hfits ⊢
  exact h.accounted hclosed hone hfits

end Carried
end Journal

namespace Ledger

variable (r : Resolver) (units : Nat) (caps : Capacities) (actions : List Action)

theorem ofPair?_of_mem_handoffs {pair : Handoff}
    (h : pair ∈ ((Ledger.new units caps).run r actions).handoffs.keys) :
    Handoff.ofPair? pair.victim pair.aggressor = some pair := by
  obtain ⟨a, -, pair', ha, rfl⟩ :=
    (carried_handoffs r units caps actions).exists_of_mem_keys (fun _ _ => rfl) h
  cases a with
  | switch ctx unit ts prev next =>
    obtain ⟨hv, ha, hprev, hnext⟩ := Handoff.ofPair?_eq_some_iff.1 ha
    exact Handoff.ofPair?_eq_some_iff.2 ⟨hprev ▸ hv, hnext ▸ ha, rfl, rfl⟩
  | fault ctx => cases ha
  | reset => cases ha

theorem count_of_get?_handoffs {pair : Handoff} {n : UInt64}
    (h : ((Ledger.new units caps).run r actions).handoffs.get? pair = some n) :
    n = .ofNat ((openWindow actions).countP (Action.displaces pair.victim pair.aggressor)) := by
  have hpair := ofPair?_of_mem_handoffs r units caps actions (Table.mem_keys_of_get? h)
  apply (carried_handoffs r units caps actions).load_eq_countP (fun _ _ => rfl) (fun _ => rfl) h
  intro a
  rw [← Action.handoff?_eq_some_iff hpair a]
  simp [Journal.handoffs]

theorem ne_zero_of_mem_faults {pid : Pid} (h : pid ∈ ((Ledger.new units caps).run r actions).faults.keys) :
    pid ≠ 0 := by
  obtain ⟨a, -, pid', ha, rfl⟩ :=
    (carried_faults r units caps actions).exists_of_mem_keys (fun _ _ => rfl) h
  exact Action.ne_zero_of_faulting? ha

theorem apply_fault_of_idle (l : Ledger) {ctx : Context} (h : ctx.entity = 0) : l.apply r (.fault ctx) = l := by
  rw [apply, fault, countFault, if_pos h]

theorem count_of_get?_faults {pid : Pid} {v : FaultRecord}
    (h : ((Ledger.new units caps).run r actions).faults.get? pid = some v) :
    v.faults = .ofNat ((openWindow actions).countP (Action.faultsFor pid)) := by
  have hpid := ne_zero_of_mem_faults r units caps actions (Table.mem_keys_of_get? h)
  apply (carried_faults r units caps actions).load_eq_countP (fun _ _ => rfl) (fun _ => rfl) h
  intro a
  rw [← Action.faulting?_eq_some_iff hpid a]
  simp [Journal.faults]

/-- A switch counts its own pair and leaves every other one alone, the same pair turned round included. -/
theorem get?_handoffs_switch (l : Ledger) (ctx : Context) (unit : UnitId) (ts : UInt64) {v a v' a' : Pid}
    {pair : Handoff} (hpair : Handoff.ofPair? v' a' = some pair) (hne : (v', a') ≠ (v, a)) :
    (l.apply r (.switch ctx unit ts v a)).handoffs.get? pair = l.handoffs.get? pair := by
  rw [apply, switch, handoffs_charge, countHandoff]
  cases hown : Handoff.ofPair? v a with
  | none => rfl
  | some own =>
    have hother : pair ≠ own := by
      rintro rfl
      obtain ⟨rfl, rfl⟩ := Handoff.ofPair?_inj hpair hown
      exact hne rfl
    exact (Table.get?_upsertWith ..).trans (if_neg hother)

theorem mem_handoffRanking_iff {l : Ledger} (hnodup : l.handoffs.keys.Nodup)
    (hreal : ∀ pair ∈ l.handoffs.keys, Handoff.ofPair? pair.victim pair.aggressor = some pair)
    (name : Pid → String) (c : HandoffCount) :
    c ∈ l.handoffRanking 0 name ↔
      ∃ pair, Handoff.ofPair? c.victim c.aggressor = some pair ∧ l.handoffs.get? pair = some c.count ∧
        c.count ≠ 0 ∧ c.victimComm = name c.victim ∧ c.aggressorComm = name c.aggressor := by
  simp only [handoffRanking, keepFirst, if_true, List.mem_map, ranked_perm.mem_iff, List.mem_filter,
    decide_eq_true_eq]
  constructor
  · rintro ⟨e, ⟨he, hpos⟩, rfl⟩
    exact ⟨e.1, hreal e.1 (List.mem_map_of_mem he), Table.get?_of_mem_entries hnodup he,
      (UInt64.ne_of_lt hpos).symm, rfl, rfl⟩
  · rintro ⟨pair, hpair, hget, hne, hvictim, haggressor⟩
    obtain ⟨-, -, hv, ha⟩ := Handoff.ofPair?_eq_some_iff.1 hpair
    refine ⟨(pair, c.count), ⟨Table.mem_entries_of_get? hget, UInt64.pos_iff_ne_zero.2 hne⟩, ?_⟩
    simp only [hv, ha, ← hvictim, ← haggressor]

theorem nodup_handoffRanking {l : Ledger} (h : l.handoffs.keys.Nodup) (name : Pid → String) :
    ((l.handoffRanking 0 name).map fun c => (c.victim, c.aggressor)).Nodup := by
  rw [handoffRanking, List.map_map]
  have hkeys : ((ranked Prod.snd (·.1.raw.toNat) l.handoffs.entries).map Prod.fst).Nodup := nodup_ranked h
  have hhalves := hkeys.map (f := fun pair : Handoff => (pair.victim, pair.aggressor)) fun x y hxy =>
    Handoff.eq_of_halves (congrArg Prod.fst hxy) (congrArg Prod.snd hxy)
  rwa [List.map_map] at hhalves

theorem handoffs_accounted (hfits : (openWindow actions).countP Action.isHandoff < 2 ^ 64) :
    (openWindow actions).countP Action.isHandoff =
      (((Ledger.new units caps).run r actions).handoffs.entries.map (·.2.toNat)).sum +
        (((Ledger.new units caps).run r actions).handoffs.dropped -
          ((Ledger.new units caps).run r (closedWindows actions)).handoffs.dropped).toNat :=
  (carried_handoffs r units caps actions).accounted_openWindow (carried_handoffs r units caps _)
    (fun _ _ => rfl) (fun _ => rfl) Action.isSome_handoff? hfits

theorem faults_accounted (hfits : (openWindow actions).countP Action.isRealFault < 2 ^ 64) :
    (openWindow actions).countP Action.isRealFault =
      (((Ledger.new units caps).run r actions).faults.entries.map (·.2.faults.toNat)).sum +
        (((Ledger.new units caps).run r actions).faults.dropped -
          ((Ledger.new units caps).run r (closedWindows actions)).faults.dropped).toNat :=
  (carried_faults r units caps actions).accounted_openWindow (carried_faults r units caps _)
    (fun _ _ => rfl) (fun _ => rfl) Action.isSome_faulting? hfits

end Ledger

/-- In every state that a run reaches, each pair in the table has the number of switches between its two halves
since the last reset, modulo 2^64, and no other pair shares its count or is touched by its switches. The ranking
without a limit lists just the pairs with a count, each once, by their two entities. Every switch between real
entities since the last reset is in one of the counts or among the refusals since then. Each fault record has the
number of faults of its entity since the last reset, and every fault of a real entity since then is in one of the
records or was refused; the idle task has none. Only what a full table does not have is refused. -/
theorem counts_of_run (r : Resolver) (units : Nat) (caps : Capacities) (actions : List Action) :
    let fresh := Ledger.new units caps
    let l := fresh.run r actions
    let closed := fresh.run r (closedWindows actions)
    let recent := openWindow actions
    (∀ pair n, l.handoffs.get? pair = some n →
      Handoff.ofPair? pair.victim pair.aggressor = some pair ∧
      n = .ofNat (recent.countP (Action.displaces pair.victim pair.aggressor))) ∧
    (∀ v a v' a' pair, Handoff.ofPair? v a = some pair → Handoff.ofPair? v' a' = some pair →
      v = v' ∧ a = a') ∧
    (∀ ctx unit ts v a v' a' pair, Handoff.ofPair? v' a' = some pair → (v', a') ≠ (v, a) →
      (l.apply r (.switch ctx unit ts v a)).handoffs.get? pair = l.handoffs.get? pair) ∧
    (∀ name c, c ∈ l.handoffRanking 0 name ↔
      ∃ pair, Handoff.ofPair? c.victim c.aggressor = some pair ∧ l.handoffs.get? pair = some c.count ∧
        c.count ≠ 0 ∧ c.victimComm = name c.victim ∧ c.aggressorComm = name c.aggressor) ∧
    (∀ name, ((l.handoffRanking 0 name).map fun c => (c.victim, c.aggressor)).Nodup) ∧
    (recent.countP Action.isHandoff < 2 ^ 64 →
      recent.countP Action.isHandoff =
        (l.handoffs.entries.map (·.2.toNat)).sum + (l.handoffs.dropped - closed.handoffs.dropped).toNat) ∧
    (∀ a ∈ recent, ∀ pair, a.handoff? = some pair →
      pair ∈ l.handoffs.keys ∨ l.handoffs.size = caps.handoffs.toNat) ∧
    (∀ pid v, l.faults.get? pid = some v → v.faults = .ofNat (recent.countP (Action.faultsFor pid))) ∧
    (recent.countP Action.isRealFault < 2 ^ 64 →
      recent.countP Action.isRealFault =
        (l.faults.entries.map (·.2.faults.toNat)).sum + (l.faults.dropped - closed.faults.dropped).toNat) ∧
    (∀ a ∈ recent, ∀ pid, a.faulting? = some pid → pid ∈ l.faults.keys ∨ l.faults.size = caps.faults.toNat) ∧
    0 ∉ l.faults.keys ∧ ∀ ctx, ctx.entity = 0 → l.apply r (.fault ctx) = l := by
  intro fresh l closed recent
  have hhandoffs := Ledger.carried_handoffs r units caps actions
  have hfaults := Ledger.carried_faults r units caps actions
  have hreal (pair : Handoff) (hpair : pair ∈ l.handoffs.keys) :=
    Ledger.ofPair?_of_mem_handoffs r units caps actions hpair
  exact ⟨fun pair n h =>
      ⟨hreal pair (Table.mem_keys_of_get? h), Ledger.count_of_get?_handoffs r units caps actions h⟩,
    fun _ _ _ _ _ => Handoff.ofPair?_inj,
    fun ctx unit ts _ _ _ _ _ hpair hne => l.get?_handoffs_switch r ctx unit ts hpair hne,
    Ledger.mem_handoffRanking_iff hhandoffs.nodup_keys hreal, Ledger.nodup_handoffRanking hhandoffs.nodup_keys,
    Ledger.handoffs_accounted r units caps actions,
    fun _ ha _ hpair => hhandoffs.mem_keys_or_full (fun _ _ => rfl) ha hpair,
    fun _ _ h => Ledger.count_of_get?_faults r units caps actions h,
    Ledger.faults_accounted r units caps actions,
    fun _ ha _ hpid => hfaults.mem_keys_or_full (fun _ _ => rfl) ha hpid,
    fun h => Ledger.ne_zero_of_mem_faults r units caps actions h rfl,
    fun _ hidle => l.apply_fault_of_idle r hidle⟩

/-- A pair and the same pair turned round, with the greatest number as one half, once on a unit that does not
exist. There is no room for a third pair or for a second entity with faults, and what was counted before the reset
is gone. -/
theorem counts_of_mirrored_pairs :
    let ctx : Context := .named 5 none none
    let actions : List Action :=
      [.switch ctx 0 0 1 2, .fault ctx, .reset, .switch ctx 0 1 5 0xFFFFFFFF, .switch ctx 9 7 0xFFFFFFFF 5,
        .switch ctx 0 9 5 0xFFFFFFFF, .switch ctx 0 11 1 2, .fault ctx, .fault (.named 6 none none),
        .fault (.named 0 none none), .fault ctx]
    let l := (Ledger.new 1 ⟨1, 2, 1⟩).run .leafThenParent actions
    ∃ there back v, Handoff.ofPair? 5 0xFFFFFFFF = some there ∧ Handoff.ofPair? 0xFFFFFFFF 5 = some back ∧
      l.handoffs.get? there = some 2 ∧
      2 = UInt64.ofNat ((openWindow actions).countP (Action.displaces there.victim there.aggressor)) ∧
      l.handoffs.get? back = some 1 ∧
      1 = UInt64.ofNat ((openWindow actions).countP (Action.displaces back.victim back.aggressor)) ∧
      (openWindow actions).countP Action.isHandoff = (l.handoffs.entries.map (·.2.toNat)).sum + 1 ∧
      l.faults.get? 5 = some v ∧ v.faults = 2 ∧
      v.faults = .ofNat ((openWindow actions).countP (Action.faultsFor 5)) ∧
      (openWindow actions).countP Action.isRealFault = (l.faults.entries.map (·.2.faults.toNat)).sum + 1 := by
  intro ctx actions l
  obtain ⟨hcount, -, -, -, -, hall, -, hfault, hfaults, -⟩ := counts_of_run .leafThenParent 1 ⟨1, 2, 1⟩ actions
  set closed := (Ledger.new 1 ⟨1, 2, 1⟩).run .leafThenParent (closedWindows actions)
  have hthere : l.handoffs.get? ⟨0x5FFFFFFFF⟩ = some 2 := by decide
  have hback : l.handoffs.get? ⟨0xFFFFFFFF00000005⟩ = some 1 := by decide
  have hrecord : l.faults.get? 5 = some ⟨2, .ofBytes Padded.sentinel⟩ := by decide
  have hrefused : (l.handoffs.dropped - closed.handoffs.dropped).toNat = 1 := by decide
  have hrefused' : (l.faults.dropped - closed.faults.dropped).toNat = 1 := by decide
  have hsum := hall (by decide)
  have hsum' := hfaults (by decide)
  rw [hrefused] at hsum
  rw [hrefused'] at hsum'
  exact ⟨⟨0x5FFFFFFFF⟩, ⟨0xFFFFFFFF00000005⟩, ⟨2, .ofBytes Padded.sentinel⟩, by decide, by decide, hthere,
    (hcount _ _ hthere).2, hback, (hcount _ _ hback).2, hsum, hrecord, rfl, hfault 5 _ hrecord, hsum'⟩

end SchedLedger
