import SchedLedger.Proofs.Records

/-! Frozen texts. A name or a group that once stands in a record is never written again before the next reset,
whatever the resolver does; the resolver is asked only for a record that is new or has no group yet; and one
that never succeeds without a name is asked just once for every record. -/

namespace SchedLedger

structure Field (n : Nat) (ν : Type) where
  table : Ledger → Table Pid ν
  text : ν → Padded n

namespace Field

def names : Field 16 CpuRecord :=
  ⟨Ledger.cpu, CpuRecord.comm⟩

def groups : Field 64 CpuRecord :=
  ⟨Ledger.cpu, CpuRecord.group⟩

def faultGroups : Field 64 FaultRecord :=
  ⟨Ledger.faults, FaultRecord.group⟩

variable {n : Nat} {ν : Type}

def text? (F : Field n ν) (l : Ledger) (pid : Pid) : Option (Padded n) :=
  ((F.table l).get? pid).map F.text

/-- Every buffer with a text stays as it is, byte by byte. -/
def Frozen (F : Field n ν) (l l' : Ledger) : Prop :=
  ∀ pid text, F.text? l pid = some text → text.isEmpty = false → F.text? l' pid = some text

/-- The record of an entity is created, or it is found without a text. -/
def Asks (F : Field n ν) (l l' : Ledger) (pid : Pid) : Prop :=
  (F.text? l pid = none ∧ F.text? l' pid ≠ none) ∨ ∃ text, F.text? l pid = some text ∧ text.isEmpty = true

variable {F : Field n ν} {l l' : Ledger}

theorem Frozen.refl (F : Field n ν) (l : Ledger) : F.Frozen l l :=
  fun _ _ h _ => h

theorem Frozen.trans {l'' : Ledger} (h : F.Frozen l l') (h' : F.Frozen l' l'') : F.Frozen l l'' :=
  fun pid text htext hne => h' pid text (h pid text htext hne) hne

theorem frozen_of_eq (h : F.table l' = F.table l) : F.Frozen l l' := by
  intro pid text htext _
  rwa [text?, h]

theorem frozen_of_upsert {σ : Type} {k : Pid} {init : σ → ν × σ} {update : ν → σ → ν × σ} {s : σ}
    (h : F.table l' = ((F.table l).upsertWith k init update s).2.1)
    (hkeep : ∀ v, (F.text v).isEmpty = false → F.text (update v s).1 = F.text v) : F.Frozen l l' := by
  intro pid text htext hne
  rw [text?, Option.map_eq_some_iff] at htext
  obtain ⟨v, hv, rfl⟩ := htext
  rw [text?, h, Table.get?_upsertWith]
  split
  · next hpid =>
    subst hpid
    rw [hv, Option.map_some, hkeep v hne]
  · rw [hv, Option.map_some]

end Field

namespace Ledger

variable {r : Resolver} {l l' : Ledger} {a : Action}

/-- The names and groups of all records are frozen. -/
structure Frozen (l l' : Ledger) : Prop where
  names : Field.names.Frozen l l'
  groups : Field.groups.Frozen l l'
  faultGroups : Field.faultGroups.Frozen l l'

theorem Frozen.refl (l : Ledger) : Frozen l l :=
  ⟨.refl _ l, .refl _ l, .refl _ l⟩

theorem Frozen.trans {l'' : Ledger} (h : Frozen l l') (h' : Frozen l' l'') : Frozen l l'' :=
  ⟨h.names.trans h'.names, h.groups.trans h'.groups, h.faultGroups.trans h'.faultGroups⟩

theorem comm_extendCpu {v : CpuRecord} (h : v.comm.isEmpty = false) (r : Resolver) (ctx : Context)
    (ns : UInt64) (n : Nat) : (extendCpu r ctx ns v n).1.comm = v.comm := by
  simp [extendCpu, h]

theorem group_extendCpu {v : CpuRecord} (h : v.group.isEmpty = false) (r : Resolver) (ctx : Context)
    (ns : UInt64) (n : Nat) : (extendCpu r ctx ns v n).1.group = v.group := by
  simp only [extendCpu, Resolver.refresh_of_text h]

theorem group_extendFault {v : FaultRecord} (h : v.group.isEmpty = false) (r : Resolver) (ctx : Context)
    (n : Nat) : (extendFault r ctx v n).1.group = v.group := by
  simp only [extendFault, Resolver.refresh_of_text h]

/-- Only a reset unfreezes. -/
theorem frozen_apply (r : Resolver) (l : Ledger) (ha : a.isReset = false) : Frozen l (l.apply r a) := by
  cases booking_apply r l a with
  | reset => cases ha
  | idle _ _ _ cpu faults => exact ⟨Field.frozen_of_eq cpu, Field.frozen_of_eq cpu, Field.frozen_of_eq faults⟩
  | @charge ctx unit ts prev next held hheld hne booked faults =>
    obtain ⟨hcpu, -⟩ := Prod.mk.inj booked
    have hnames : Field.names.Frozen l (l.apply r (.switch ctx unit ts prev next)) :=
      Field.frozen_of_upsert hcpu fun v hv => comm_extendCpu hv r ctx (ts - held.since) l.lookups
    have hgroups : Field.groups.Frozen l (l.apply r (.switch ctx unit ts prev next)) :=
      Field.frozen_of_upsert hcpu fun v hv => group_extendCpu hv r ctx (ts - held.since) l.lookups
    exact ⟨hnames, hgroups, Field.frozen_of_eq faults⟩
  | @fault ctx hne booked cpu =>
    obtain ⟨hfaults, -⟩ := Prod.mk.inj booked
    have hgroups : Field.faultGroups.Frozen l (l.apply r (.fault ctx)) :=
      Field.frozen_of_upsert hfaults fun v hv => group_extendFault hv r ctx l.lookups
    exact ⟨Field.frozen_of_eq cpu, Field.frozen_of_eq cpu, hgroups⟩

theorem frozen_run (r : Resolver) (l : Ledger) {later : List Action} (h : ∀ a ∈ later, a.isReset = false) :
    Frozen l (l.run r later) := by
  induction later generalizing l with
  | nil => exact .refl l
  | cons a later ih =>
    rw [List.forall_mem_cons] at h
    exact (frozen_apply r l h.1).trans (ih (l.apply r a) h.2)

end Ledger

namespace Field

variable {ν : Type} {F : Field 64 ν} {r : Resolver} {ctx : Context} {l l' : Ledger} {pid : Pid}

/-- What the resolver answers about `ctx`, handed the buffer of the record, is settled in the record. -/
def Answered (F : Field 64 ν) (r : Resolver) (ctx : Context) (l l' : Ledger) (pid : Pid) : Prop :=
  F.text? l' pid = some (r l.lookups ctx ((F.text? l pid).getD .empty)).settled

theorem text?_eq_none_iff : F.text? l pid = none ↔ pid ∉ (F.table l).keys := by
  rw [text?, Option.map_eq_none_iff, Table.get?_eq_none_iff]

theorem not_asks_of_refused (hbefore : pid ∉ (F.table l).keys) (hafter : pid ∉ (F.table l').keys) :
    ¬ F.Asks l l' pid := by
  rintro (⟨-, hsome⟩ | ⟨text, htext, -⟩)
  · exact hsome (text?_eq_none_iff.2 hafter)
  · rw [text?_eq_none_iff.2 hbefore] at htext
    cases htext

theorem not_asks_of_text {text : Padded 64} (htext : F.text? l pid = some text) (hne : text.isEmpty = false) :
    ¬ F.Asks l l' pid := by
  rintro (⟨hnone, -⟩ | ⟨other, hother, hempty⟩)
  · rw [htext] at hnone
    cases hnone
  · rw [htext] at hother
    cases hother
    rw [hne] at hempty
    cases hempty

/-- An upsert that captures the group of `ctx` asks once for a record that is new or has no group, and leaves
the answer there; for any other it does not ask. -/
theorem asks_of_upsert {init : Nat → ν × Nat} {update : ν → Nat → ν × Nat}
    (hinit : ∀ n, (F.text (init n).1, (init n).2) = r.fill ctx .empty n)
    (hupdate : ∀ v n, (F.text (update v n).1, (update v n).2) = r.refresh ctx (F.text v) n)
    (booked : (F.table l', l'.lookups) = ((F.table l).upsertWith pid init update l.lookups).2) :
    (F.Asks l l' pid ∧ l'.lookups = l.lookups + 1 ∨ ¬ F.Asks l l' pid ∧ l'.lookups = l.lookups) ∧
      (F.Asks l l' pid → F.Answered r ctx l l' pid) := by
  obtain ⟨htable, hlookups⟩ := Prod.mk.inj booked
  rcases (F.table l).upsertWith_cases pid init update l.lookups with
    ⟨v, hv, hu⟩ | ⟨hk, -, hu⟩ | ⟨hk, -, hu⟩
  · -- a present record asks just if its group is empty, and hands its buffer over
    rw [hu] at htable hlookups
    have hold : F.text? l pid = some (F.text v) := by rw [text?, hv, Option.map_some]
    have hnew : F.text? l' pid = some (F.text (update v l.lookups).1) := by
      rw [text?, htable, Table.get?_put_self (Table.mem_keys_of_get? hv), Option.map_some]
    have hrefresh := hupdate v l.lookups
    cases hempty : (F.text v).isEmpty with
    | true =>
      rw [Resolver.refresh_of_isEmpty hempty] at hrefresh
      obtain ⟨htext, hcount⟩ := Prod.mk.inj hrefresh
      refine ⟨.inl ⟨.inr ⟨F.text v, hold, hempty⟩, hlookups.trans hcount⟩, fun _ => ?_⟩
      rw [Answered, hnew, htext, hold, Option.getD_some]
    | false =>
      rw [Resolver.refresh_of_text hempty] at hrefresh
      obtain ⟨-, hcount⟩ := Prod.mk.inj hrefresh
      have hnot : ¬ F.Asks l l' pid := not_asks_of_text hold hempty
      exact ⟨.inr ⟨hnot, hlookups.trans hcount⟩, fun h => absurd h hnot⟩
  · rw [hu] at htable hlookups
    have hold : F.text? l pid = none := text?_eq_none_iff.2 hk
    have hnew : F.text? l' pid = some (F.text (init l.lookups).1) := by
      rw [text?, htable, Table.get?_append_self hk, Option.map_some]
    have hfill := hinit l.lookups
    rw [Resolver.fill_eq] at hfill
    obtain ⟨htext, hcount⟩ := Prod.mk.inj hfill
    refine ⟨.inl ⟨.inl ⟨hold, by simp [hnew]⟩, hlookups.trans hcount⟩, fun _ => ?_⟩
    rw [Answered, hnew, htext, hold, Option.getD_none]
  · rw [hu] at htable hlookups
    have hnot : ¬ F.Asks l l' pid := not_asks_of_refused hk (by rw [htable]; exact hk)
    exact ⟨.inr ⟨hnot, hlookups⟩, fun h => absurd h hnot⟩

end Field

namespace Ledger

variable {r : Resolver} {l : Ledger} {a : Action}

def Asks (l l' : Ledger) (a : Action) : Prop :=
  (∃ pid, l.charged? a = some pid ∧ Field.groups.Asks l l' pid) ∨
    ∃ pid, a.faulting? = some pid ∧ Field.faultGroups.Asks l l' pid

def Answers (r : Resolver) (l l' : Ledger) (a : Action) : Prop :=
  ∀ ctx, a.context? = some ctx →
    (∀ pid, l.charged? a = some pid → Field.groups.Asks l l' pid → Field.groups.Answered r ctx l l' pid) ∧
      ∀ pid, a.faulting? = some pid → Field.faultGroups.Asks l l' pid →
        Field.faultGroups.Answered r ctx l l' pid

theorem asks_apply (r : Resolver) (l : Ledger) (a : Action) :
    (l.Asks (l.apply r a) a ∧ (l.apply r a).lookups = l.lookups + 1 ∨
      ¬ l.Asks (l.apply r a) a ∧ (l.apply r a).lookups = l.lookups) ∧
      l.Answers r (l.apply r a) a := by
  cases booking_apply r l a with
  | reset _ _ lookups =>
    exact ⟨.inr ⟨by simp [Asks, charged?, Action.faulting?], lookups⟩, fun _ h => nomatch h⟩
  | idle _ hcharged hfaulting _ _ lookups =>
    exact ⟨.inr ⟨by simp [Asks, hcharged, hfaulting], lookups⟩, by simp [Answers, hcharged, hfaulting]⟩
  | @charge ctx unit ts prev next held hheld hne booked =>
    have hcharged : l.charged? (.switch ctx unit ts prev next) = some held.entity := by
      simp [charged?, hheld, hne]
    simp only [Asks, Answers, hcharged, Action.faulting?, Action.context?, Option.some.injEq, exists_eq_left',
      forall_eq', reduceCtorEq, false_and, exists_false, or_false, false_implies, implies_true, and_true]
    exact Field.asks_of_upsert (F := .groups) (fun _ => rfl) (fun _ _ => rfl) booked
  | @fault ctx hne booked =>
    have hfaulting : Action.faulting? (.fault ctx) = some ctx.entity := if_neg hne
    simp only [Asks, Answers, charged?, hfaulting, Action.context?, Option.some.injEq, exists_eq_left',
      forall_eq', reduceCtorEq, false_and, exists_false, false_or, false_implies, implies_true, true_and]
    exact Field.asks_of_upsert (F := .faultGroups) (fun _ => rfl) (fun _ _ => rfl) booked

theorem lookups_of_not_asks (h : ¬ l.Asks (l.apply r a) a) : (l.apply r a).lookups = l.lookups := by
  rcases (asks_apply r l a).1 with ⟨hasks, -⟩ | ⟨-, hsame⟩
  · exact absurd hasks h
  · exact hsame

theorem lookups_of_refused_cpu {pid : Pid} (hcharged : l.charged? a = some pid) (hbefore : pid ∉ l.cpu.keys)
    (hafter : pid ∉ (l.apply r a).cpu.keys) : (l.apply r a).lookups = l.lookups := by
  refine lookups_of_not_asks ?_
  cases a with
  | reset => cases hcharged
  | fault ctx => cases hcharged
  | switch ctx unit ts prev next =>
    rintro (⟨other, hother, hasks⟩ | ⟨_, hfaulting, -⟩)
    · rw [hcharged] at hother
      cases hother
      exact Field.not_asks_of_refused hbefore hafter hasks
    · cases hfaulting

theorem lookups_of_refused_fault {pid : Pid} (hfaulting : a.faulting? = some pid)
    (hbefore : pid ∉ l.faults.keys) (hafter : pid ∉ (l.apply r a).faults.keys) : (l.apply r a).lookups = l.lookups := by
  refine lookups_of_not_asks ?_
  cases a with
  | reset => cases hfaulting
  | switch ctx unit ts prev next => cases hfaulting
  | fault ctx =>
    rintro (⟨_, hcharged, -⟩ | ⟨other, hother, hasks⟩)
    · cases hcharged
    · rw [hfaulting] at hother
      cases hother
      exact Field.not_asks_of_refused hbefore hafter hasks

end Ledger

namespace Table

variable {κ ν σ : Type} [DecidableEq κ] {t t' : Table κ ν}

/-- How many keys `t'` has that `t` has not. -/
def added (t t' : Table κ ν) : Nat :=
  t'.keys.countP (· ∉ t.keys)

theorem added_eq_zero (h : t'.keys ⊆ t.keys) : t.added t' = 0 := by
  rw [added, List.countP_eq_zero]
  intro k hk
  simpa using h hk

theorem added_append {k : κ} (hk : k ∉ t.keys) (v : ν) : t.added (t.append k v) = 1 := by
  have hold : t.keys.countP (· ∉ t.keys) = 0 := added_eq_zero (List.Subset.refl t.keys)
  rw [added, keys_append, List.countP_append, hold]
  simp [hk]

theorem added_upsertWith (t : Table κ ν) (k : κ) (init : σ → ν × σ) (update : ν → σ → ν × σ) (s : σ) :
    t.added (t.upsertWith k init update s).2.1 =
      if k ∉ t.keys ∧ k ∈ (t.upsertWith k init update s).2.1.keys then 1 else 0 := by
  rcases t.upsertWith_cases k init update s with ⟨v, hv, hu⟩ | ⟨hk, -, hu⟩ | ⟨hk, -, hu⟩
  · rw [hu, if_neg fun h => h.1 (mem_keys_of_get? hv)]
    exact added_eq_zero (by rw [keys_put]; exact List.Subset.refl _)
  · rw [hu, if_pos ⟨hk, by simp⟩]
    exact added_append hk _
  · rw [hu, if_neg fun h => hk h.2]
    exact added_eq_zero (List.Subset.refl _)

end Table

namespace Field

variable {ν : Type} {F : Field 64 ν} {r : Resolver} {ctx : Context} {l l' : Ledger} {pid : Pid}

theorem asks_iff_of_grouped (h : ∀ k v, (F.table l).get? k = some v → (F.text v).isEmpty = false) :
    F.Asks l l' pid ↔ pid ∉ (F.table l).keys ∧ pid ∈ (F.table l').keys := by
  have hnone : ¬ ∃ text, F.text? l pid = some text ∧ text.isEmpty = true := by
    rintro ⟨text, htext, hempty⟩
    obtain ⟨v, hv, rfl⟩ := Option.map_eq_some_iff.1 htext
    rw [h pid v hv] at hempty
    cases hempty
  rw [Asks, or_iff_left hnone, text?_eq_none_iff, Ne, text?_eq_none_iff, not_not]

theorem lookups_of_upsert {init : Nat → ν × Nat} {update : ν → Nat → ν × Nat}
    (hinit : ∀ n, (F.text (init n).1, (init n).2) = r.fill ctx .empty n)
    (hupdate : ∀ v n, (F.text (update v n).1, (update v n).2) = r.refresh ctx (F.text v) n)
    (booked : (F.table l', l'.lookups) = ((F.table l).upsertWith pid init update l.lookups).2)
    (hgrouped : ∀ k v, (F.table l).get? k = some v → (F.text v).isEmpty = false) :
    l'.lookups = l.lookups + (F.table l).added (F.table l') := by
  obtain ⟨htable, -⟩ := Prod.mk.inj booked
  have hadded := (F.table l).added_upsertWith pid init update l.lookups
  rw [← htable] at hadded
  have hcreated : F.Asks l l' pid ↔ pid ∉ (F.table l).keys ∧ pid ∈ (F.table l').keys :=
    asks_iff_of_grouped hgrouped
  rcases (asks_of_upsert hinit hupdate booked).1 with ⟨hasks, hcount⟩ | ⟨hasks, hcount⟩
  · rw [hcount, hadded, if_pos (hcreated.1 hasks)]
  · rw [hcount, hadded, if_neg (mt hcreated.2 hasks), Nat.add_zero]

end Field

namespace Ledger

variable {r : Resolver} {l : Ledger}

/-- How many records the actions create in the two tables. -/
def created (r : Resolver) (l : Ledger) : List Action → Nat
  | [] => 0
  | a :: actions =>
    let l' := l.apply r a
    l.cpu.added l'.cpu + l.faults.added l'.faults + l'.created r actions

theorem lookups_apply (h : l.Grouped) (a : Action) :
    (l.apply r a).lookups =
      l.lookups + (l.cpu.added (l.apply r a).cpu + l.faults.added (l.apply r a).faults) := by
  cases booking_apply r l a with
  | reset cpu faults lookups =>
    rw [lookups, cpu, faults, Table.added_eq_zero (by simp), Table.added_eq_zero (by simp)]
    rfl
  | idle _ _ _ cpu faults lookups =>
    rw [lookups, cpu, faults, Table.added_eq_zero (List.Subset.refl _),
      Table.added_eq_zero (List.Subset.refl _)]
    rfl
  | charge _ _ booked faults =>
    rw [faults, Table.added_eq_zero (List.Subset.refl _), Nat.add_zero]
    exact Field.lookups_of_upsert (F := .groups) (fun _ => rfl) (fun _ _ => rfl) booked h.cpu
  | fault _ booked cpu =>
    rw [cpu, Table.added_eq_zero (List.Subset.refl _), Nat.zero_add]
    exact Field.lookups_of_upsert (F := .faultGroups) (fun _ => rfl) (fun _ _ => rfl) booked h.faults

theorem lookups_run (h : l.Grouped) (hr : r.NeverEmpty) (actions : List Action) :
    (l.run r actions).lookups = l.lookups + l.created r actions := by
  induction actions generalizing l with
  | nil => rfl
  | cons a actions ih =>
    have hrest : (l.run r (a :: actions)).lookups = (l.apply r a).lookups + (l.apply r a).created r actions :=
      ih (h.apply hr a)
    rw [hrest, lookups_apply h a, created]
    omega

/-- What was named stays named. In any state that a run can reach, names and groups are frozen until the next
reset; the next action asks the resolver, once, just if it creates the record that it books in or finds it
without a group, so never for an entity that is refused, and leaves the answer or `n/a` there; and a resolver
that never succeeds without a name was asked as often as records were created. -/
theorem frozen_of_run (r : Resolver) (units : Nat) (caps : Capacities) (actions : List Action) :
    let l := (Ledger.new units caps).run r actions
    (∀ later, (∀ a ∈ later, a.isReset = false) → Frozen l (l.run r later)) ∧
    (∀ a, let l' := l.apply r a
      (l.Asks l' a ∧ l'.lookups = l.lookups + 1 ∨ ¬ l.Asks l' a ∧ l'.lookups = l.lookups) ∧
      (∀ pid, l.charged? a = some pid → pid ∉ l.cpu.keys → pid ∉ l'.cpu.keys → l'.lookups = l.lookups) ∧
      (∀ pid, a.faulting? = some pid → pid ∉ l.faults.keys → pid ∉ l'.faults.keys →
        l'.lookups = l.lookups) ∧
      l.Answers r l' a) ∧
    (r.NeverEmpty → l.lookups = (Ledger.new units caps).created r actions) := by
  intro l
  refine ⟨fun later hlater => frozen_run r l hlater, fun a => ?_, fun hr => ?_⟩
  · obtain ⟨hasks, hanswers⟩ := asks_apply r l a
    exact ⟨hasks, fun _ => lookups_of_refused_cpu, fun _ => lookups_of_refused_fault, hanswers⟩
  · have hrun := lookups_run (Grouped.new units caps) hr actions
    rwa [show (Ledger.new units caps).lookups = 0 from rfl, Nat.zero_add] at hrun

/-- The first lookup scribbles and fails, so `n/a` stays with 1 although a lookup would find a group by now, and its
name stays although a later context copies other bytes; 2 and 3 have no room and are not looked up. -/
theorem frozen_of_scribble :
    let r : Resolver := fun n _ out => ⟨n != 0, out.write [0x61, 0x70, 0x70]⟩
    let one : Context := .named 1 (some [0x6F, 0x6E, 0x65]) none
    let rude : Context := ⟨1, fun out => out.poke 0 0x78, none⟩
    let done : List Action := [.switch one 0 0 0 1, .switch one 0 5 1 2, .fault one]
    let l := (Ledger.new 1 ⟨1, 1, 1⟩).run r done
    let later : List Action := [.switch (.named 2 none none) 0 7 2 1, .fault rude, .switch rude 0 9 1 0]
    (Field.groups.text? l 1 = some (.ofBytes Padded.sentinel) ∧
      Field.groups.text? (l.run r later) 1 = some (.ofBytes Padded.sentinel)) ∧
    (Field.names.text? l 1 = some (.ofBytes [0x6F, 0x6E, 0x65]) ∧
      Field.names.text? (l.run r later) 1 = some (.ofBytes [0x6F, 0x6E, 0x65])) ∧
    (Field.faultGroups.text? l 1 = some (.ofBytes [0x61, 0x70, 0x70]) ∧
      Field.faultGroups.text? (l.run r later) 1 = some (.ofBytes [0x61, 0x70, 0x70])) ∧
    (l.apply r (.switch (.named 2 none none) 0 7 2 1)).lookups = l.lookups ∧
    (l.apply r (.fault (.named 3 none none))).lookups = l.lookups ∧
    l.lookups = (Ledger.new 1 ⟨1, 1, 1⟩).created r done ∧ l.lookups = 2 := by
  intro r one rude done l later
  obtain ⟨hfrozen, hnext, hcount⟩ := frozen_of_run r 1 ⟨1, 1, 1⟩ done
  have hr : r.NeverEmpty := by
    intro n ctx out _
    change (out.write _).isEmpty = false
    rw [Padded.isEmpty_write]
    decide
  have hlater := hfrozen later (by decide)
  have hgroup : Field.groups.text? l 1 = some (.ofBytes Padded.sentinel) := by decide
  have hname : Field.names.text? l 1 = some (.ofBytes [0x6F, 0x6E, 0x65]) := by decide
  have hfault : Field.faultGroups.text? l 1 = some (.ofBytes [0x61, 0x70, 0x70]) := by decide
  obtain ⟨-, hrefused, -⟩ := hnext (.switch (.named 2 none none) 0 7 2 1)
  obtain ⟨-, -, hrefused', -⟩ := hnext (.fault (.named 3 none none))
  exact ⟨⟨hgroup, hlater.groups 1 _ hgroup (by decide)⟩, ⟨hname, hlater.names 1 _ hname (by decide)⟩,
    ⟨hfault, hlater.faultGroups 1 _ hfault (by decide)⟩, hrefused 2 (by decide) (by decide) (by decide),
    hrefused' 3 (by decide) (by decide) (by decide), hcount hr, by decide⟩

end Ledger

end SchedLedger
