import SchedLedger.Account.Ledger
import SchedLedger.Proofs.Admission
import Mathlib.Algebra.BigOperators.Group.List.Basic
import Mathlib.Data.UInt

/-! Journals: what the actions of a run enter into each account of a ledger, read off the actions alone,
without any table or slot. A history holds the actions so far, the newest first. -/

namespace SchedLedger

namespace Action

def isReset : Action → Bool
  | .reset => true
  | .switch .. | .fault _ => false

def slot? (unit : UnitId) : Action → Option Slot
  | .switch _ u ts _ next => if u = unit then some ⟨next, ts⟩ else none
  | .fault _ | .reset => none

def handoff? : Action → Option Handoff
  | .switch _ _ _ prev next => Handoff.ofPair? prev next
  | .fault _ | .reset => none

def faulting? : Action → Option Pid
  | .fault ctx => if ctx.entity = 0 then none else some ctx.entity
  | .switch .. | .reset => none

end Action

/-- The switches on a unit, in the order of the actions. -/
def switchesOn (unit : UnitId) (actions : List Action) : List Slot :=
  actions.filterMap (Action.slot? unit)

/-- Time that is charged on a unit to the entity that leaves it. -/
structure Charge where
  unit : UnitId
  entity : Pid
  ns : UInt64
deriving DecidableEq, Repr

/-- The charge that a switch makes after the one before it on the same unit. The idle task is not
charged, and time runs modulo 2^64. -/
def Charge.between? (unit : UnitId) (held now : Slot) : Option Charge :=
  if held.entity = 0 then none else some ⟨unit, held.entity, now.since - held.since⟩

/-- The charges of all switches on a unit but the first, each with the one before it. -/
def Charge.along (unit : UnitId) (switches : List Slot) : List Charge :=
  (switches.zip switches.tail).filterMap fun p => between? unit p.1 p.2

/-- How an account is kept: what an action enters after those before it, under which key it goes, and
how much it is. A reset enters nothing. -/
structure Journal (ε κ : Type) where
  enter? : List Action → Action → Option ε
  key : ε → κ
  amount : ε → UInt64
  enter?_reset : ∀ past, enter? past .reset = none := by intro past; rfl

namespace Journal

/-- Time is charged by a switch on one of the units to whom the last switch on that unit let in. -/
def time (units : Nat) : Journal Charge Pid where
  enter?
    | past, .switch _ unit ts _ next =>
      if unit.toNat < units then
        (switchesOn unit past).head?.bind fun held => Charge.between? unit held ⟨next, ts⟩
      else none
    | _, .fault _ | _, .reset => none
  key := Charge.entity
  amount := Charge.ns

def handoffs : Journal Handoff Handoff where
  enter? _ a := a.handoff?
  key := id
  amount _ := 1

def faults : Journal Pid Pid where
  enter? _ a := a.faulting?
  key := id
  amount _ := 1

variable {ε κ : Type} (j : Journal ε κ)

/-- What recent actions enter after the past ones, in the order of time. -/
def entries (past : List Action) : List Action → List ε
  | [] => []
  | a :: recent => entries past recent ++ (j.enter? (recent ++ past) a).toList

/-- What was entered since the last reset. -/
def sinceReset (history : List Action) : List ε :=
  j.entries (history.dropWhile (!·.isReset)) (history.takeWhile (!·.isReset))

theorem entries_append (past middle recent : List Action) :
    j.entries past (recent ++ middle) = j.entries past middle ++ j.entries (middle ++ past) recent := by
  induction recent with
  | nil => simp [entries]
  | cons a recent ih =>
    simp only [List.cons_append, entries, ih, List.append_assoc]

theorem isReset_of_enter? {past : List Action} {a : Action} {e : ε} (h : j.enter? past a = some e) :
    a.isReset = false := by
  cases a with
  | reset => rw [j.enter?_reset] at h; cases h
  | switch ctx unit ts prev next => rfl
  | fault ctx => rfl

theorem entries_eq_filterMap {f : Action → Option ε} (h : ∀ past a, j.enter? past a = f a)
    (past history : List Action) : j.entries past history = history.reverse.filterMap f := by
  induction history with
  | nil => rfl
  | cons a history ih =>
    rw [entries, ih, h, List.reverse_cons, List.filterMap_append]
    cases ha : f a <;> simp [ha]

@[simp] theorem sinceReset_nil : j.sinceReset [] = [] := rfl

@[simp] theorem sinceReset_reset (history : List Action) : j.sinceReset (.reset :: history) = [] := by
  simp [sinceReset, Action.isReset, entries]

theorem sinceReset_cons {a : Action} (ha : a.isReset = false) (history : List Action) :
    j.sinceReset (a :: history) = j.sinceReset history ++ (j.enter? history a).toList := by
  simp only [sinceReset, List.takeWhile_cons, List.dropWhile_cons, ha, Bool.not_false, if_true, entries,
    List.takeWhile_append_dropWhile]

theorem sinceReset_cons_some {a : Action} {history : List Action} {e : ε}
    (he : j.enter? history a = some e) : j.sinceReset (a :: history) = j.sinceReset history ++ [e] := by
  rw [sinceReset_cons j (j.isReset_of_enter? he), he, Option.toList_some]

/-- Actions without a reset among them that follow a reset, or nothing at all, enter all that was entered
since then. -/
theorem sinceReset_append {recent past : List Action} (hr : ∀ a ∈ recent, a.isReset = false)
    (hp : past.takeWhile (!·.isReset) = []) : j.sinceReset (recent ++ past) = j.entries past recent := by
  have hpos : ∀ a ∈ recent, (!a.isReset) = true := fun a ha => by simp [hr a ha]
  have hdrop : past.dropWhile (!·.isReset) = past := by
    simpa [hp] using List.takeWhile_append_dropWhile (p := (!·.isReset)) (l := past)
  rw [sinceReset, List.takeWhile_append_of_pos hpos, List.dropWhile_append_of_pos hpos, hp, hdrop,
    List.append_nil]

theorem sinceReset_eq_entries {history : List Action} (h : ∀ a ∈ history, a.isReset = false) :
    j.sinceReset history = j.entries [] history := by
  rw [← List.append_nil history, j.sinceReset_append h rfl, List.append_nil]

theorem sinceReset_suffix (history : List Action) : j.sinceReset history <:+ j.entries [] history := by
  have h := j.entries_append [] (history.dropWhile (!·.isReset)) (history.takeWhile (!·.isReset))
  rw [List.takeWhile_append_dropWhile, List.append_nil] at h
  rw [h]
  exact List.suffix_append _ _

theorem entries_subset {past history : List Action} (h : past <:+ history) :
    j.entries [] past ⊆ j.entries [] history := by
  obtain ⟨recent, rfl⟩ := h
  rw [entries_append]
  exact List.subset_append_left _ _

variable [DecidableEq κ]

/-- All that was entered under a key, modulo 2^64. -/
def total (k : κ) (es : List ε) : UInt64 :=
  ((es.filter (j.key · = k)).map j.amount).sum

/-- How many entries a table of some capacity refuses: those whose keys are not among the ones admitted
since the last reset. -/
def refusals (capacity : Nat) : List Action → Nat
  | [] => 0
  | a :: past =>
    match j.enter? past a with
    | some e =>
      if j.key e ∈ admitted capacity ((j.sinceReset past ++ [e]).map j.key) then refusals capacity past
      else refusals capacity past + 1
    | none => refusals capacity past

variable {n : Nat} {a : Action} {past : List Action} {e : ε}

theorem refusals_of_none (he : j.enter? past a = none) :
    j.refusals n (a :: past) = j.refusals n past := by
  simp only [refusals, he]

theorem refusals_of_admitted (he : j.enter? past a = some e)
    (h : j.key e ∈ admitted n ((j.sinceReset past ++ [e]).map j.key)) :
    j.refusals n (a :: past) = j.refusals n past := by
  simp only [refusals, he, h, if_true]

theorem refusals_of_refused (he : j.enter? past a = some e)
    (h : j.key e ∉ admitted n ((j.sinceReset past ++ [e]).map j.key)) :
    j.refusals n (a :: past) = j.refusals n past + 1 := by
  simp only [refusals, he, h, if_false]

@[simp] theorem total_nil (k : κ) : j.total k [] = 0 := rfl

theorem total_append (k : κ) (xs ys : List ε) : j.total k (xs ++ ys) = j.total k xs + j.total k ys := by
  simp [total]

theorem total_singleton_self (e : ε) : j.total (j.key e) [e] = j.amount e := by
  simp [total]

theorem total_singleton_of_ne {k : κ} {e : ε} (h : j.key e ≠ k) : j.total k [e] = 0 := by
  simp [total, h]

theorem total_concat (k : κ) (es : List ε) (e : ε) :
    j.total k (es ++ [e]) = if j.key e = k then j.total k es + j.amount e else j.total k es := by
  rw [total_append]
  split
  · next h => rw [← h, total_singleton_self]
  · next h => rw [total_singleton_of_ne j h, add_zero]

theorem total_perm {xs ys : List ε} (h : xs.Perm ys) (k : κ) : j.total k xs = j.total k ys :=
  ((h.filter _).map _).sum_eq

theorem total_eq_zero {k : κ} {es : List ε} (h : k ∉ es.map j.key) : j.total k es = 0 := by
  have hnone : es.filter (j.key · = k) = [] := by
    rw [List.filter_eq_nil_iff]
    intro e he hk
    exact h (List.mem_map.2 ⟨e, he, by simpa using hk⟩)
  simp [total, hnone]

theorem refusals_eq_zero {history : List Action}
    (h : ∀ past, past <:+ history → ((j.sinceReset past).map j.key).eraseDups.length ≤ n) :
    j.refusals n history = 0 := by
  induction history with
  | nil => rfl
  | cons a past ih =>
    have hpast := ih fun p hp => h p (hp.trans (List.suffix_cons a past))
    cases he : j.enter? past a with
    | none => rw [refusals_of_none j he, hpast]
    | some e =>
      have hfits := h (a :: past) (List.suffix_refl _)
      rw [j.sinceReset_cons_some he] at hfits
      rw [refusals_of_admitted j he, hpast]
      rw [admitted_eq_eraseDups hfits]
      exact List.mem_eraseDups.2 (by simp)

theorem mem_admitted_of_refusals_eq_zero {history : List Action} (h : j.refusals n history = 0) :
    ∀ k ∈ (j.sinceReset history).map j.key, k ∈ admitted n ((j.sinceReset history).map j.key) := by
  induction history with
  | nil => simp
  | cons a past ih =>
    cases he : j.enter? past a with
    | none =>
      rw [refusals_of_none j he] at h
      cases ha : a.isReset with
      | true =>
        cases a <;> cases ha
        simp
      | false =>
        rw [sinceReset_cons j ha, he, Option.toList_none, List.append_nil]
        exact ih h
    | some e =>
      rw [j.sinceReset_cons_some he]
      have hin : j.key e ∈ admitted n ((j.sinceReset past ++ [e]).map j.key) := by
        by_contra hout
        rw [refusals_of_refused j he hout] at h
        cases h
      rw [refusals_of_admitted j he hin] at h
      intro k hk
      rw [List.map_append, List.map_singleton] at hk hin ⊢
      rcases List.mem_append.1 hk with hk | hk
      · exact mem_admitted_concat (ih h k hk) _
      · rwa [List.mem_singleton.1 hk]

theorem distinct_le_of_refusals_eq_zero {history : List Action}
    (h : j.refusals n history = 0) : ((j.sinceReset history).map j.key).eraseDups.length ≤ n :=
  length_eraseDups_le_of_admitted (j.mem_admitted_of_refusals_eq_zero h)

end Journal

@[simp] theorem switchesOn_nil (unit : UnitId) : switchesOn unit [] = [] := rfl

theorem switchesOn_cons (unit : UnitId) (a : Action) (actions : List Action) :
    switchesOn unit (a :: actions) = (a.slot? unit).toList ++ switchesOn unit actions := by
  cases h : a.slot? unit <;> simp [switchesOn, h]

theorem switchesOn_reverse (unit : UnitId) (actions : List Action) :
    switchesOn unit actions.reverse = (switchesOn unit actions).reverse :=
  List.filterMap_reverse

namespace Charge

@[simp] theorem along_nil (unit : UnitId) : along unit [] = [] := rfl

theorem zip_tail_concat {α : Type} (xs : List α) (x : α) :
    (xs ++ [x]).zip (xs ++ [x]).tail = xs.zip xs.tail ++ (xs.getLast?.map (·, x)).toList := by
  induction xs with
  | nil => rfl
  | cons y ys ih =>
    cases ys with
    | nil => rfl
    | cons z zs => simpa using ih

theorem along_concat (unit : UnitId) (switches : List Slot) (now : Slot) :
    along unit (switches ++ [now]) =
      along unit switches ++ (switches.getLast?.bind (between? unit · now)).toList := by
  rw [along, zip_tail_concat, List.filterMap_append, along]
  cases switches.getLast? with
  | none => rfl
  | some held => cases h : between? unit held now <;> simp [h]

theorem unit_of_between? {unit : UnitId} {held now : Slot} {c : Charge}
    (h : between? unit held now = some c) : c.unit = unit := by
  unfold between? at h
  split at h
  · cases h
  · cases h; rfl

end Charge

namespace Journal

/-- The charges of one unit are those along its own switches, however other units interleave. -/
theorem entries_time_filter (units : Nat) (unit : UnitId) (history : List Action) :
    ((time units).entries [] history).filter (·.unit = unit) =
      if unit.toNat < units then Charge.along unit (switchesOn unit history).reverse else [] := by
  induction history with
  | nil => simp [entries]
  | cons a past ih =>
    rw [entries, List.filter_append, ih, List.append_nil, switchesOn_cons, List.reverse_append]
    cases a with
    | fault ctx => simp [time, Action.slot?]
    | reset => simp [time, Action.slot?]
    | switch ctx u ts prev next =>
      by_cases hu : u = unit
      · subst hu
        by_cases hin : u.toNat < units
        · have hown : ∀ c ∈ ((switchesOn u past).head?.bind
              (Charge.between? u · ⟨next, ts⟩)).toList, decide (c.unit = u) = true := by
            intro c hc
            rw [Option.mem_toList, Option.bind_eq_some_iff] at hc
            obtain ⟨held, -, hc⟩ := hc
            simp [Charge.unit_of_between? hc]
          simp only [time, Action.slot?, hin, if_true, Option.toList_some, List.reverse_singleton]
          rw [List.filter_eq_self.2 hown, Charge.along_concat, List.getLast?_reverse]
        · simp [time, hin]
      · -- a switch elsewhere charges nobody on this unit
        have hother : ∀ c ∈ ((time units).enter? past (.switch ctx u ts prev next)).toList,
            ¬ decide (c.unit = unit) = true := by
          intro c hc
          simp only [time, Option.mem_toList] at hc
          split at hc
          · obtain ⟨held, -, hc⟩ := Option.bind_eq_some_iff.1 hc
            simpa [Charge.unit_of_between? hc] using hu
          · cases hc
        rw [List.filter_eq_nil_iff.2 hother]
        simp [Action.slot?, hu]

end Journal
end SchedLedger
