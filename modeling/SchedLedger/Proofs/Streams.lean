import SchedLedger.Proofs.Ledger
import SchedLedger.Proofs.Resolver
import Mathlib.Data.List.Basic

/-! Streams apart. Switches and faults go through one ledger and share its count of lookups, but what one of
them leaves does not show the other: each part of the ledger follows its own reading of the actions. That holds
of full tables as well, since a refusal depends on the keys of the table alone. -/

namespace SchedLedger

namespace Action

def isFault : Action → Bool
  | .fault _ => true
  | .switch .. | .reset => false

def isSwitch : Action → Bool
  | .switch .. => true
  | .fault _ | .reset => false

/-- The two entities of a switch, without anything else; the end of a window is `some none`. -/
def passing? : Action → Option (Option (Pid × Pid))
  | .switch _ _ _ prev next => some (some (prev, next))
  | .fault _ => none
  | .reset => some none

end Action

theorem Table.upsertWith_table_congr {κ ν σ : Type} [DecidableEq κ] {init : σ → ν × σ}
    {update : ν → σ → ν × σ} {s s' : σ} (hinit : (init s).1 = (init s').1)
    (hupdate : ∀ v, (update v s).1 = (update v s').1) (t : Table κ ν) (k : κ) :
    (t.upsertWith k init update s).2.1 = (t.upsertWith k init update s').2.1 := by
  unfold upsertWith
  split
  · next v _ => rw [hupdate v]
  · split
    · rw [hinit]
    · rfl

namespace Resolver

/-- The answer does not depend on how often the resolver was asked. -/
def Uncounted (r : Resolver) : Prop :=
  ∀ n m, r n = r m

theorem uncounted_leafThenParent : leafThenParent.Uncounted :=
  fun _ _ => rfl

variable {r : Resolver}

theorem Uncounted.fill (h : r.Uncounted) (ctx : Context) (out : GroupPath) (n m : Nat) :
    (r.fill ctx out n).1 = (r.fill ctx out m).1 := by
  rw [fill_eq, fill_eq, h n m]

theorem Uncounted.refresh (h : r.Uncounted) (ctx : Context) (out : GroupPath) (n m : Nat) :
    (r.refresh ctx out n).1 = (r.refresh ctx out m).1 := by
  unfold Resolver.refresh
  split
  · exact h.fill ctx out n m
  · rfl

end Resolver

namespace Ledger

/-- A part of the ledger follows a reading of the actions: where nothing is read it does not move, and parts
that are alike stay so when the same is read. -/
structure Unwinds {β μ : Type} (r : Resolver) (part : Ledger → β) (read : Action → Option μ) : Prop where
  unread : ∀ l a, read a = none → part (l.apply r a) = part l
  step : ∀ l l' a a' m, read a = some m → read a' = some m → part l = part l' →
    part (l.apply r a) = part (l'.apply r a')

namespace Unwinds

variable {β μ : Type} {r : Resolver} {part : Ledger → β} {read : Action → Option μ}

theorem ofKeep {keep : Action → Bool} (unread : ∀ l a, keep a = false → part (l.apply r a) = part l)
    (step : ∀ l l' a, keep a = true → part l = part l' → part (l.apply r a) = part (l'.apply r a)) :
    Unwinds r part (Option.guard keep) where
  unread l a h := unread l a (by simpa using h)
  step l l' a a' m ha ha' hpart := by
    obtain ⟨rfl, hkeep⟩ := Option.guard_eq_some_iff.1 ha
    obtain ⟨rfl, -⟩ := Option.guard_eq_some_iff.1 ha'
    exact step l l' _ hkeep hpart

theorem run_unread (h : Unwinds r part read) (l : Ledger) {actions : List Action}
    (hread : ∀ a ∈ actions, read a = none) : part (l.run r actions) = part l := by
  induction actions generalizing l with
  | nil => rfl
  | cons a actions ih =>
    rw [List.forall_mem_cons] at hread
    exact (ih (l.apply r a) hread.2).trans (h.unread l a hread.1)

theorem run (h : Unwinds r part read) {l l' : Ledger} {xs ys : List Action} (hpart : part l = part l')
    (hread : xs.filterMap read = ys.filterMap read) : part (l.run r xs) = part (l'.run r ys) := by
  -- what is unread on one side is passed over; the next thing read comes up on both
  induction xs generalizing l l' ys with
  | nil =>
    have hys : ∀ a ∈ ys, read a = none := List.filterMap_eq_nil_iff.1 hread.symm
    exact hpart.trans (h.run_unread l' hys).symm
  | cons x xs ih =>
    cases hx : read x with
    | none =>
      rw [List.filterMap_cons_none hx] at hread
      exact ih ((h.unread l x hx).trans hpart) hread
    | some m =>
      rw [List.filterMap_cons_some hx] at hread
      obtain ⟨skipped, y, ys', rfl, hskipped, hy, hrest⟩ := List.filterMap_eq_cons_iff.1 hread.symm
      have hmeet : part l = part (l'.run r skipped) := hpart.trans (h.run_unread l' hskipped).symm
      have hnext := ih (h.step l _ x y m hx hy hmeet) hrest.symm
      rwa [Ledger.run_append]

theorem run_filter {keep : Action → Bool} (h : Unwinds r part (Option.guard keep)) {l l' : Ledger}
    {xs ys : List Action} (hpart : part l = part l') (hkeep : xs.filter keep = ys.filter keep) :
    part (l.run r xs) = part (l'.run r ys) := by
  refine h.run hpart ?_
  rwa [List.filterMap_eq_filter]

end Unwinds

section Uncounted

variable {r : Resolver} (hr : r.Uncounted)
include hr

theorem openCpu_uncounted (ctx : Context) (ns : UInt64) (n m : Nat) :
    (openCpu r ctx ns n).1 = (openCpu r ctx ns m).1 := by
  simp only [openCpu, hr.fill ctx .empty n m]

theorem extendCpu_uncounted (ctx : Context) (ns : UInt64) (record : CpuRecord) (n m : Nat) :
    (extendCpu r ctx ns record n).1 = (extendCpu r ctx ns record m).1 := by
  simp only [extendCpu, hr.refresh ctx record.group n m]

theorem openFault_uncounted (ctx : Context) (n m : Nat) : (openFault r ctx n).1 = (openFault r ctx m).1 := by
  simp only [openFault, hr.fill ctx .empty n m]

theorem extendFault_uncounted (ctx : Context) (record : FaultRecord) (n m : Nat) :
    (extendFault r ctx record n).1 = (extendFault r ctx record m).1 := by
  simp only [extendFault, hr.refresh ctx record.group n m]

variable {l l' : Ledger}

theorem cpu_switch_congr (hslots : l.slots = l'.slots) (hcpu : l.cpu = l'.cpu) (ctx : Context) (unit : UnitId)
    (ts : UInt64) (prev next : Pid) :
    (l.switch r ctx unit ts prev next).cpu = (l'.switch r ctx unit ts prev next).cpu := by
  unfold switch
  by_cases hidle : ∀ held, l'.slots.get? unit = some held → held.entity = 0
  · rw [cpu_charge_of_idle _ _ _ (by simpa [hslots] using hidle), cpu_charge_of_idle _ _ _ (by simpa using hidle),
      cpu_countHandoff, cpu_countHandoff, hcpu]
  · obtain ⟨held, hheld, hne⟩ : ∃ held, l'.slots.get? unit = some held ∧ held.entity ≠ 0 := by
      simpa using hidle
    rw [cpu_charge_of_held _ _ _ (by simpa [hslots] using hheld) hne,
      cpu_charge_of_held _ _ _ (by simpa using hheld) hne, cpu_countHandoff, cpu_countHandoff, hcpu]
    exact Table.upsertWith_table_congr (openCpu_uncounted hr _ _ _ _)
      (fun v => extendCpu_uncounted hr _ _ v _ _) _ _

theorem faults_fault_congr (hfaults : l.faults = l'.faults) (ctx : Context) :
    (l.fault r ctx).faults = (l'.fault r ctx).faults := by
  unfold fault countFault
  split
  · exact hfaults
  · rw [hfaults]
    exact Table.upsertWith_table_congr (openFault_uncounted hr _ _ _)
      (fun v => extendFault_uncounted hr _ v _ _) _ _

theorem unwinds_times : Unwinds r (fun l => (l.slots, l.cpu)) (Option.guard (!·.isFault)) := by
  refine .ofKeep (fun l a ha => ?_) (fun l l' a _ hpart => ?_)
  · cases a with
    | fault ctx => simp [apply, fault]
    | switch | reset => cases ha
  · obtain ⟨hslots, hcpu⟩ := Prod.mk.inj hpart
    cases a with
    | fault ctx => simp [apply, fault, hslots, hcpu]
    | reset => simp [apply, reset, hslots, hcpu]
    | switch ctx unit ts prev next =>
      refine Prod.ext ?_ (cpu_switch_congr hr hslots hcpu ctx unit ts prev next)
      simp [apply, switch, slots_charge, hslots]

theorem unwinds_faults : Unwinds r faults (Option.guard (!·.isSwitch)) := by
  refine .ofKeep (fun l a ha => ?_) (fun l l' a _ hpart => ?_)
  · cases a with
    | switch ctx unit ts prev next => simp [apply, switch]
    | fault | reset => cases ha
  · cases a with
    | switch ctx unit ts prev next => simp [apply, switch, hpart]
    | reset => simp [apply, reset, hpart]
    | fault ctx => exact faults_fault_congr hr hpart ctx

end Uncounted

theorem handoffs_countHandoff_congr {l l' : Ledger} (h : l.handoffs = l'.handoffs) (victim aggressor : Pid) :
    (l.countHandoff victim aggressor).handoffs = (l'.countHandoff victim aggressor).handoffs := by
  unfold countHandoff
  split
  · exact h
  · rw [h]

theorem unwinds_handoffs (r : Resolver) : Unwinds r handoffs Action.passing? where
  unread l a ha := by
    cases a with
    | fault ctx => simp [apply, fault]
    | switch | reset => cases ha
  step l l' a a' m ha ha' hpart := by
    cases a with
    | fault => cases ha
    | reset =>
      cases ha
      cases a' with
      | fault | switch => cases ha'
      | reset => simp [apply, reset, hpart]
    -- the two switches may differ in all but their pair
    | switch ctx unit ts prev next =>
      cases ha
      cases a' with
      | fault | reset => cases ha'
      | switch ctx' unit' ts' prev' next' =>
        obtain ⟨rfl, rfl⟩ := Prod.mk.inj (Option.some.inj (Option.some.inj ha'))
        simpa [apply, switch] using handoffs_countHandoff_congr hpart _ _

/-- Two ledgers that show the same of their switches. -/
structure SwitchedAlike (l l' : Ledger) : Prop where
  slots : l.slots = l'.slots
  cpu : l.cpu = l'.cpu
  handoffs : l.handoffs = l'.handoffs

end Ledger

theorem filterMap_passing?_filter (actions : List Action) :
    (actions.filter (!·.isFault)).filterMap Action.passing? = actions.filterMap Action.passing? := by
  rw [List.filterMap_filter]
  refine List.filterMap_congr fun a _ => ?_
  cases a <;> rfl

/-- With the same switches, whatever faults stand between them, the slots, the table of times with all its
texts and the table of handoffs end alike, refusals included. With the same faults, whatever switches stand
between them, the table of faults does. And the table of handoffs is made by the pairs of entities alone,
whoever reports them, where and when. Windows end at the same places in both runs, if any does. -/
theorem streams_apart (l l' : Ledger) (xs ys : List Action) :
    (l.SwitchedAlike l' → xs.filter (!·.isFault) = ys.filter (!·.isFault) →
      (l.run .leafThenParent xs).SwitchedAlike (l'.run .leafThenParent ys)) ∧
    (l.faults = l'.faults → xs.filter (!·.isSwitch) = ys.filter (!·.isSwitch) →
      (l.run .leafThenParent xs).faults = (l'.run .leafThenParent ys).faults) ∧
    (l.handoffs = l'.handoffs → xs.filterMap Action.passing? = ys.filterMap Action.passing? →
      (l.run .leafThenParent xs).handoffs = (l'.run .leafThenParent ys).handoffs) := by
  have hr := Resolver.uncounted_leafThenParent
  have hhandoffs := Ledger.unwinds_handoffs .leafThenParent
  refine ⟨fun hpart hswitches => ?_, fun hpart => (Ledger.unwinds_faults hr).run_filter hpart,
    fun hpart => hhandoffs.run hpart⟩
  have htimes := (Ledger.unwinds_times hr).run_filter (Prod.ext hpart.slots hpart.cpu) hswitches
  obtain ⟨hslots, hcpu⟩ := Prod.mk.inj htimes
  refine ⟨hslots, hcpu, hhandoffs.run hpart.handoffs ?_⟩
  rw [← filterMap_passing?_filter xs, hswitches, filterMap_passing?_filter]

/-- Tables with room for one key each, except for faults on the second ledger. Task 2 has faults before it is
charged, in one run only, and is refused by the table of times in both. The third run has other tasks report
the same pairs on a unit of their own. -/
theorem streams_apart_of_full_tables :
    let one : Context := .named 1 (some (Text.Utf8.encode "one")) (some ⟨some [some (Text.Utf8.encode "app")]⟩)
    let two : Context := .named 2 (some (Text.Utf8.encode "two")) none
    let xs : List Action :=
      [.fault two, .switch one 0 0 2 1, .fault one, .switch one 0 5 1 2, .switch two 0 9 2 1, .fault two]
    let ys : List Action := [.switch one 0 0 2 1, .switch one 0 5 1 2, .fault one, .switch two 0 9 2 1]
    let zs : List Action := [.switch two 3 7 2 1, .switch two 3 7 1 2, .switch two 3 7 2 1]
    let l := Ledger.new 1 ⟨1, 1, 1⟩
    let l' := Ledger.new 1 ⟨1, 1, 4⟩
    (l.run .leafThenParent xs).cpu.dropped = 1 ∧ (l.run .leafThenParent xs).handoffs.dropped = 1 ∧
      (l.run .leafThenParent xs).faults.dropped = 1 ∧
      (l.run .leafThenParent xs).SwitchedAlike (l'.run .leafThenParent ys) ∧
      (l.run .leafThenParent xs).faults = (l.run .leafThenParent (xs.filter (!·.isSwitch))).faults ∧
      (l.run .leafThenParent xs).handoffs = (l'.run .leafThenParent zs).handoffs := by
  intro one two xs ys zs l l'
  exact ⟨by decide, by decide, by decide,
    (streams_apart l l' xs ys).1 ⟨rfl, rfl, rfl⟩ rfl,
    (streams_apart l l xs _).2.1 rfl rfl,
    (streams_apart l l' xs zs).2.2 rfl (by decide)⟩

end SchedLedger
