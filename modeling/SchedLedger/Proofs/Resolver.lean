import SchedLedger.Account.Resolver
import SchedLedger.Proofs.Padded

/-! Lookups by their outcome. A failed lookup leaves `n/a` whatever the resolver did to the buffer, and the
walk over the hierarchy leaves the first usable name of the leaf and its parent. -/

namespace SchedLedger

/-- What stands in the buffer once a lookup was answered. -/
def Resolution.settled (answer : Resolution) : GroupPath :=
  if answer.found then answer.out else .ofBytes Padded.sentinel

/-- A name is usable if there is something of it before its first NUL. -/
def usable (name : Bytes) : Bool :=
  !(beforeNul name).isEmpty

/-- A name that cannot be used leaves no trace in a fresh buffer. -/
theorem Padded.ofBytes_of_unusable {n : Nat} {name : Bytes} (h : usable name = false) :
    (ofBytes name : Padded n) = empty := by
  have hnone : beforeNul name = [] := by simpa [usable] using h
  apply eq_of_toBytes
  rw [toBytes_ofBytes, toBytes_empty, fit_eq_take, hnone, List.take_nil, List.nil_append]
  rfl

/-- The first usable name of the leaf and its parent, if one of them has any. -/
def GroupChain.offer? (chain : GroupChain) : Option Bytes :=
  (chain.take 2).findSome? (·.filter usable)

/-- The first usable name of the leaf and its parent. -/
def GroupChain.label (chain : GroupChain) : Bytes :=
  ((chain.take 2).findSome? (·.filter usable)).getD Padded.sentinel

theorem GroupChain.usable_of_offer? {chain : GroupChain} {name : Bytes} (h : name ∈ chain.offer?) :
    usable name = true := by
  obtain ⟨offered, -, hoffered⟩ := List.exists_of_findSome?_eq_some h
  exact (Option.filter_eq_some_iff.1 hoffered).2

/-- The answer that a name stands for, in a buffer that holds nothing else. -/
def Resolution.ofName : Option Bytes → Resolution
  | some name => ⟨true, .ofBytes name⟩
  | none => ⟨false, .empty⟩

theorem Resolution.settled_ofName (name : Option Bytes) :
    (ofName name).settled = .ofBytes (name.getD Padded.sentinel) := by
  cases name <;> rfl

namespace Resolver

/-- The resolver never succeeds without a name in the buffer. -/
def NeverEmpty (r : Resolver) : Prop :=
  ∀ n ctx out, (r n ctx out).found = true → (r n ctx out).out.isEmpty = false

variable {r : Resolver} {ctx : Context} {out : GroupPath}

theorem fill_eq (r : Resolver) (ctx : Context) (out : GroupPath) (n : Nat) :
    r.fill ctx out n = ((r n ctx out).settled, n + 1) := rfl

theorem refresh_of_isEmpty (h : out.isEmpty = true) (n : Nat) :
    r.refresh ctx out n = ((r n ctx out).settled, n + 1) := by
  rw [refresh, if_pos h, fill_eq]

theorem refresh_of_text (h : out.isEmpty = false) (n : Nat) : r.refresh ctx out n = (out, n) := by
  rw [refresh, h]
  rfl

theorem NeverEmpty.isEmpty_settled (h : r.NeverEmpty) (n : Nat) (ctx : Context) (out : GroupPath) :
    (r n ctx out).settled.isEmpty = false := by
  unfold Resolution.settled
  split
  · next hfound => exact h n ctx out hfound
  · rfl

theorem NeverEmpty.isEmpty_refresh (h : r.NeverEmpty) (ctx : Context) (out : GroupPath) (n : Nat) :
    (r.refresh ctx out n).1.isEmpty = false := by
  cases hout : out.isEmpty with
  | true =>
    rw [refresh_of_isEmpty hout]
    exact h.isEmpty_settled n ctx out
  | false => rw [refresh_of_text hout, hout]

theorem written_pos_iff (name : Bytes) : 0 < Padded.written 64 name ↔ usable name = true := by
  rw [Padded.written, Padded.fit_eq_take, usable]
  cases beforeNul name <;> simp

theorem copyName_some (name : Bytes) (out : GroupPath) :
    copyName (some name) out = ⟨usable name, .ofBytes name⟩ := by
  have hfound : decide (Padded.written 64 name > 0) = usable name := by
    rw [Bool.eq_iff_iff, decide_eq_true_iff]
    exact written_pos_iff name
  rw [copyName, hfound]
  rfl

theorem copyName_empty (name : Option Bytes) : copyName name .empty = .ofName (name.filter usable) := by
  cases name with
  | none => rfl
  | some bytes =>
    rw [copyName_some, Option.filter_some]
    cases h : usable bytes with
    | true => rfl
    | false =>
      rw [Padded.ofBytes_of_unusable h]
      rfl

theorem leafThenParent_eq (n : Nat) (ctx : Context) (out : GroupPath) :
    leafThenParent n ctx out = .ofName (ctx.chain?.getD []).offer? := by
  unfold leafThenParent
  cases ctx.chain? with
  | none => rfl
  | some chain =>
    rcases chain with _ | ⟨leaf, _ | ⟨parent, above⟩⟩
    · rfl
    · simp only [Padded.clear, copyName_empty, Option.getD_some, GroupChain.offer?]
      cases h : leaf.filter usable <;> simp [h]
    · simp only [Padded.clear, copyName_empty, Option.getD_some, GroupChain.offer?]
      cases hleaf : leaf.filter usable with
      | some name => simp [hleaf, Resolution.ofName]
      | none =>
        cases hparent : parent.filter usable <;> simp [hleaf, hparent, Resolution.ofName, copyName_empty]

theorem settled_leafThenParent (n : Nat) (ctx : Context) (out : GroupPath) :
    (leafThenParent n ctx out).settled = .ofBytes (GroupChain.label (ctx.chain?.getD [])) := by
  rw [leafThenParent_eq, Resolution.settled_ofName]
  rfl

theorem isEmpty_ofName {name : Option Bytes} (h : ∀ bytes ∈ name, usable bytes = true) :
    (Resolution.ofName name).out.isEmpty = !name.isSome := by
  cases name with
  | none => rfl
  | some bytes =>
    have hpos := (written_pos_iff bytes).2 (h bytes rfl)
    rw [Padded.written, List.length_pos_iff] at hpos
    simpa [Resolution.ofName, Padded.ofBytes, Padded.isEmpty_write] using hpos

theorem found_leafThenParent_iff (n : Nat) (ctx : Context) (out : GroupPath) :
    (leafThenParent n ctx out).found = true ↔ (leafThenParent n ctx out).out.isEmpty = false := by
  rw [leafThenParent_eq, isEmpty_ofName fun _ => GroupChain.usable_of_offer?]
  cases (ctx.chain?.getD []).offer? <;> simp [Resolution.ofName]

theorem neverEmpty_leafThenParent : leafThenParent.NeverEmpty := fun n ctx out =>
  (found_leafThenParent_iff n ctx out).1

end Resolver
end SchedLedger
