import SchedLedger.Proofs.Account
import Mathlib.Data.List.Infix

/-! Room: a run refuses nothing as long as the distinct keys that it enters fit into the tables, and a run
without resets refuses nothing only then. Every figure is then the total of what was entered. -/

namespace SchedLedger

namespace Journal

variable {ε κ : Type} [DecidableEq κ] (j : Journal ε κ) {n : Nat} {history : List Action}

/-- The number of distinct keys that a run enters. -/
def distinct (actions : List Action) : Nat :=
  ((j.entries [] actions.reverse).map j.key).eraseDups.length

theorem distinct_mono {done actions : List Action} (h : done <+: actions) :
    j.distinct done ≤ j.distinct actions :=
  length_eraseDups_le (List.map_subset _ (j.entries_subset (List.reverse_suffix.2 h)))

theorem refusals_eq_zero_of_room (h : ((j.entries [] history).map j.key).eraseDups.length ≤ n) :
    j.refusals n history = 0 := by
  apply refusals_eq_zero
  intro past hpast
  refine Nat.le_trans (length_eraseDups_le (List.map_subset _ ?_)) h
  exact List.Subset.trans (j.sinceReset_suffix past).subset (j.entries_subset hpast)

/-- A count that starts from zero, moves by single steps and never shows anything but zero in a word has
never moved. -/
theorem refusals_eq_zero_of_word (h : ∀ past, past <:+ history → UInt64.ofNat (j.refusals n past) = 0) :
    j.refusals n history = 0 := by
  induction history with
  | nil => rfl
  | cons a past ih =>
    have hpast := ih fun p hp => h p (hp.trans (List.suffix_cons a past))
    have hword := h (a :: past) (List.suffix_refl _)
    cases he : j.enter? past a with
    | none => rw [refusals_of_none j he, hpast]
    | some e =>
      by_cases hin : j.key e ∈ admitted n ((j.sinceReset past ++ [e]).map j.key)
      · rw [refusals_of_admitted j he hin, hpast]
      · rw [refusals_of_refused j he hin, hpast] at hword
        cases hword

end Journal

namespace Account

variable {ε κ ν : Type} [DecidableEq κ] {A : Account ε κ ν} {units : Nat}

/-- The figure of a key: what its value amounts to, or nothing if it is absent. -/
def figure (A : Account ε κ ν) (l : Ledger) (k : κ) : UInt64 :=
  (((A.table l).get? k).map A.load).getD 0

theorem Kept.keys_of_room (h : A.Kept units) (r : Resolver) (caps : Capacities) (history : List Action)
    (hroom : ((A.journal.sinceReset history).map A.journal.key).eraseDups.length ≤
      (A.capacity caps).toNat) :
    (A.table (after r units caps history)).keys =
      ((A.journal.sinceReset history).map A.journal.key).eraseDups := by
  rw [(h r caps history).keys, admitted_eq_eraseDups hroom]

theorem Kept.get?_of_room (h : A.Kept units) (r : Resolver) (caps : Capacities) (history : List Action)
    (hroom : ((A.journal.sinceReset history).map A.journal.key).eraseDups.length ≤
      (A.capacity caps).toNat) (k : κ) :
    ((A.table (after r units caps history)).get? k).map A.load =
      if k ∈ (A.journal.sinceReset history).map A.journal.key then
        some (A.journal.total k (A.journal.sinceReset history))
      else none := by
  rw [h.get?_after, admitted_eq_eraseDups hroom]
  simp only [List.mem_eraseDups]

theorem Kept.figure_of_room (h : A.Kept units) (r : Resolver) (caps : Capacities) (history : List Action)
    (hroom : ((A.journal.sinceReset history).map A.journal.key).eraseDups.length ≤
      (A.capacity caps).toNat) (k : κ) :
    A.figure (after r units caps history) k = A.journal.total k (A.journal.sinceReset history) := by
  rw [figure, h.get?_of_room r caps history hroom]
  split
  · rfl
  · next hk => rw [Option.getD_none, A.journal.total_eq_zero hk]

theorem Kept.dropped_of_room (h : A.Kept units) (r : Resolver) (caps : Capacities) (actions : List Action)
    (hroom : A.journal.distinct actions ≤ (A.capacity caps).toNat) :
    (A.table ((Ledger.new units caps).run r actions)).dropped = 0 := by
  rw [← after_reverse, (h r caps actions.reverse).dropped, A.journal.refusals_eq_zero_of_room hroom]
  rfl

/-- Without resets, an account that never counts a refusal has room for all its keys. -/
theorem Kept.room_of_dropped (h : A.Kept units) (r : Resolver) (caps : Capacities) (actions : List Action)
    (hno : ∀ a ∈ actions, a.isReset = false)
    (hzero : ∀ done, done <+: actions → (A.table ((Ledger.new units caps).run r done)).dropped = 0) :
    A.journal.distinct actions ≤ (A.capacity caps).toNat := by
  have hrefusals : A.journal.refusals (A.capacity caps).toNat actions.reverse = 0 := by
    apply A.journal.refusals_eq_zero_of_word
    intro past hpast
    have hc := (h r caps past).dropped
    rw [after, hzero _ (List.reverse_suffix.1 (by rwa [List.reverse_reverse]))] at hc
    exact hc.symm
  rw [Journal.distinct, ← A.journal.sinceReset_eq_entries (by simpa using hno)]
  exact A.journal.distinct_le_of_refusals_eq_zero hrefusals

end Account

namespace Ledger

def timeOf (l : Ledger) (pid : Pid) : UInt64 :=
  ((l.cpu.get? pid).map CpuRecord.ns).getD 0

def handoffsOf (l : Ledger) (pair : Handoff) : UInt64 :=
  (l.handoffs.get? pair).getD 0

def faultsOf (l : Ledger) (pid : Pid) : UInt64 :=
  ((l.faults.get? pid).map FaultRecord.faults).getD 0

theorem figure_handoffs (l : Ledger) (pair : Handoff) :
    Account.handoffs.figure l pair = l.handoffsOf pair := by
  rw [Account.figure, Account.handoffs, Option.map_id, id, handoffsOf]

/-- No table has refused a key so far. -/
structure Unrefused (l : Ledger) : Prop where
  cpu : l.cpu.dropped = 0
  handoffs : l.handoffs.dropped = 0
  faults : l.faults.dropped = 0

/-- The run refuses nothing: no count of refusals ever moves from zero. -/
def NeverRefuses (r : Resolver) (l : Ledger) (actions : List Action) : Prop :=
  ∀ done ∈ actions.inits, (l.run r done).Unrefused

end Ledger

/-- The tables have room for all distinct entities that are charged, all distinct handoffs and all distinct
entities that fault. -/
structure HasRoom (units : Nat) (caps : Capacities) (actions : List Action) : Prop where
  cpu : (Journal.time units).distinct actions ≤ caps.cpu.toNat
  handoffs : Journal.handoffs.distinct actions ≤ caps.handoffs.toNat
  faults : Journal.faults.distinct actions ≤ caps.faults.toNat

variable {units : Nat} {caps : Capacities} {actions : List Action}

theorem HasRoom.neverRefuses (h : HasRoom units caps actions) (r : Resolver) :
    (Ledger.new units caps).NeverRefuses r actions := by
  intro done hdone
  have hpre := (List.mem_inits _ _).1 hdone
  exact ⟨(Account.time_kept units).dropped_of_room r caps done ((Journal.distinct_mono _ hpre).trans h.cpu),
    (Account.handoffs_kept units).dropped_of_room r caps done
      ((Journal.distinct_mono _ hpre).trans h.handoffs),
    (Account.faults_kept units).dropped_of_room r caps done
      ((Journal.distinct_mono _ hpre).trans h.faults)⟩

theorem hasRoom_of_neverRefuses {r : Resolver} (hno : ∀ a ∈ actions, a.isReset = false)
    (h : (Ledger.new units caps).NeverRefuses r actions) : HasRoom units caps actions := by
  have hdone (done : List Action) (hpre : done <+: actions) :
      ((Ledger.new units caps).run r done).Unrefused := h done ((List.mem_inits _ _).2 hpre)
  exact ⟨(Account.time_kept units).room_of_dropped r caps actions hno fun d hd => (hdone d hd).cpu,
    (Account.handoffs_kept units).room_of_dropped r caps actions hno fun d hd => (hdone d hd).handoffs,
    (Account.faults_kept units).room_of_dropped r caps actions hno fun d hd => (hdone d hd).faults⟩

end SchedLedger
