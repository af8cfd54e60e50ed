import SchedLedger.Account.Ranking
import Mathlib.Algebra.BigOperators.Group.List.Basic
import Mathlib.Data.UInt

/-! Rankings and what they leave out. A ranking holds every entry with a value once, and a limit only takes
a first part of it, so a sum over all entries falls into one over the part that is kept and one over the
part that is cut off. -/

namespace SchedLedger

variable {α β : Type}

theorem keepFirst_eq_take {limit : UInt64} (h : limit ≠ 0) (xs : List α) :
    keepFirst limit xs = xs.take limit.toNat :=
  if_neg h

theorem sublist_keepFirst (limit : UInt64) (xs : List α) : (keepFirst limit xs).Sublist xs := by
  unfold keepFirst
  split
  · exact List.Sublist.refl xs
  · exact List.take_sublist _ xs

theorem keepFirst_map (limit : UInt64) (f : α → β) (xs : List α) :
    keepFirst limit (xs.map f) = (keepFirst limit xs).map f := by
  unfold keepFirst
  split
  · rfl
  · exact List.map_take.symm

/-- What the elements with some property amount to, modulo 2^64. -/
def sumOver (p : α → Bool) (value : α → UInt64) (xs : List α) : UInt64 :=
  ((xs.filter p).map value).sum

variable {p : α → Bool} {value : α → UInt64} {key : α → Nat} {xs ys : List α}

theorem sumOver_cons_of_pos {x : α} (h : p x) : sumOver p value (x :: xs) = value x + sumOver p value xs := by
  simp [sumOver, h]

theorem sumOver_cons_of_neg {x : α} (h : p x = false) : sumOver p value (x :: xs) = sumOver p value xs := by
  simp [sumOver, h]

theorem sumOver_append : sumOver p value (xs ++ ys) = sumOver p value xs + sumOver p value ys := by
  simp [sumOver]

theorem sumOver_perm (h : xs.Perm ys) : sumOver p value xs = sumOver p value ys :=
  ((h.filter p).map value).sum_eq

theorem sumOver_take_add_drop (n : Nat) :
    sumOver p value (xs.take n) + sumOver p value (xs.drop n) = sumOver p value xs := by
  rw [← sumOver_append, List.take_append_drop]

theorem sumOver_eq_zero (h : ∀ x ∈ xs, p x = false) : sumOver p value xs = 0 := by
  rw [sumOver, List.filter_eq_nil_iff.2 fun x hx => by simp [h x hx]]
  rfl

theorem sumOver_zero : sumOver p (fun _ => 0) xs = 0 := by
  simp [sumOver]

theorem sumOver_eq_of_mem {x : α} (hx : x ∈ xs) (hp : p x) (honly : xs.Pairwise fun a b => ¬ (p a ∧ p b)) :
    sumOver p value xs = value x := by
  induction xs with
  | nil => cases hx
  | cons y ys ih =>
    rw [List.pairwise_cons] at honly
    rcases List.mem_cons.1 hx with rfl | hx
    · rw [sumOver_cons_of_pos hp, sumOver_eq_zero fun z hz => by simpa [hp] using honly.1 z hz, add_zero]
    · rw [sumOver_cons_of_neg (by simpa [hp] using honly.1 x hx), ih hx honly.2]

theorem sumOver_map (p : β → Bool) (value : β → UInt64) (f : α → β) (xs : List α) :
    sumOver p value (xs.map f) = sumOver (fun x => p (f x)) (fun x => value (f x)) xs := by
  simp [sumOver, List.filter_map, Function.comp_def]

theorem not_both_of_nodup [DecidableEq β] {f : α → β} (h : (xs.map f).Nodup) (k : β) :
    xs.Pairwise fun a b => ¬ (decide (f a = k) ∧ decide (f b = k)) := by
  refine (List.pairwise_map.1 h).imp fun hne hboth => ?_
  simp only [decide_eq_true_eq] at hboth
  exact hne (hboth.1.trans hboth.2.symm)

theorem sumOver_eq_zero_iff (hpos : ∀ x ∈ xs, 0 < value x) (honly : xs.Pairwise fun a b => ¬ (p a ∧ p b)) :
    sumOver p value xs = 0 ↔ ∀ x ∈ xs, p x = false := by
  refine ⟨fun hzero x hx => ?_, sumOver_eq_zero⟩
  by_contra hp
  rw [sumOver_eq_of_mem hx (by simpa using hp) honly] at hzero
  exact UInt64.ne_of_lt (hpos x hx) hzero.symm

/-- Where every element has a value and a key of its own, a sum over the part that is left out vanishes just
if the key is not in that part. -/
theorem sumOver_drop_eq_zero_iff [DecidableEq β] {f : α → β} (hpos : ∀ x ∈ xs, 0 < value x)
    (hnodup : (xs.map f).Nodup) (n : Nat) (k : β) :
    sumOver (f · = k) value (xs.drop n) = 0 ↔ k ∉ (xs.drop n).map f := by
  have hsub := List.drop_sublist n xs
  have honly := not_both_of_nodup (hnodup.sublist (hsub.map f)) k
  rw [sumOver_eq_zero_iff (fun x hx => hpos x (hsub.subset hx)) honly, List.mem_map]
  simp

theorem ranked_perm : (ranked value key xs).Perm (xs.filter fun x => value x > 0) :=
  List.mergeSort_perm _ _

theorem pos_of_mem_ranked {x : α} (h : x ∈ ranked value key xs) : 0 < value x := by
  simpa using (List.mem_filter.1 (ranked_perm.mem_iff.1 h)).2

/-- Entries without a value add nothing, so the ranking amounts to what the entries do. -/
theorem sumOver_ranked : sumOver p value (ranked value key xs) = sumOver p value xs := by
  rw [sumOver_perm ranked_perm]
  induction xs with
  | nil => rfl
  | cons x xs ih =>
    by_cases hx : value x > 0
    · rw [List.filter_cons_of_pos (by simpa using hx)]
      cases hp : p x with
      | true => rw [sumOver_cons_of_pos hp, sumOver_cons_of_pos hp, ih]
      | false => rw [sumOver_cons_of_neg hp, sumOver_cons_of_neg hp, ih]
    · have hzero : value x = 0 := by simpa using hx
      rw [List.filter_cons_of_neg (by simpa using hzero), ih]
      cases hp : p x with
      | true => rw [sumOver_cons_of_pos hp, hzero, zero_add]
      | false => rw [sumOver_cons_of_neg hp]

theorem ranked_eq_self (hpos : ∀ x ∈ xs, 0 < value x)
    (h : xs.Pairwise fun a b => ranksBefore (value a) (key a) (value b) (key b)) :
    ranked value key xs = xs := by
  rw [ranked, List.filter_eq_self.2 (by simpa using hpos)]
  exact List.mergeSort_of_pairwise h

/-- Keys that are not repeated among the entries are not repeated in the ranking. -/
theorem nodup_ranked {f : α → β} (h : (xs.map f).Nodup) : ((ranked value key xs).map f).Nodup :=
  (ranked_perm.map f).nodup_iff.2 (h.sublist (List.filter_sublist.map f))

theorem ranksBefore_iff {v w : UInt64} {k j : Nat} :
    ranksBefore v k w j = true ↔ w.toNat < v.toNat ∨ (v.toNat = w.toNat ∧ k ≤ j) := by
  simp [ranksBefore, UInt64.lt_iff_toNat_lt, UInt64.toNat_inj]

theorem pairwise_ranked (value : α → UInt64) (key : α → Nat) (xs : List α) :
    (ranked value key xs).Pairwise fun a b => ranksBefore (value a) (key a) (value b) (key b) := by
  apply List.pairwise_mergeSort
  · intro a b c hab hbc
    rw [ranksBefore_iff] at hab hbc ⊢
    omega
  · intro a b
    rw [Bool.or_eq_true, ranksBefore_iff, ranksBefore_iff]
    omega

/-- Where keys are not repeated, two lists of the same elements that both stand by rank are one. -/
theorem eq_of_perm_of_ranked (value : α → UInt64) (key : α → Nat) (h : xs.Perm ys) (hnodup : (xs.map key).Nodup)
    (hxs : xs.Pairwise fun a b => ranksBefore (value a) (key a) (value b) (key b))
    (hys : ys.Pairwise fun a b => ranksBefore (value a) (key a) (value b) (key b)) : xs = ys := by
  refine h.eq_of_pairwise (fun a b ha hb hab hba => ?_) hxs hys
  rw [ranksBefore_iff] at hab hba
  exact List.inj_on_of_nodup_map hnodup ha (h.mem_iff.2 hb) (by omega)

namespace Ledger

variable (l : Ledger) (limit : UInt64) (window : Span) (name : Pid → String)

theorem cpuRanking_eq_keepFirst : l.cpuRanking limit = keepFirst limit (l.cpuRanking 0) :=
  (keepFirst_map limit _ _).symm

theorem handoffRanking_eq_keepFirst :
    l.handoffRanking limit name = keepFirst limit (l.handoffRanking 0 name) :=
  (keepFirst_map limit _ _).symm

theorem faultRanking_eq_keepFirst :
    l.faultRanking limit window name = keepFirst limit (l.faultRanking 0 window name) :=
  (keepFirst_map limit _ _).symm

variable {l limit window name}

theorem pos_of_mem_cpuRanking {u : CpuUsage} (h : u ∈ l.cpuRanking limit) : 0 < u.ns := by
  obtain ⟨e, he, rfl⟩ := List.mem_map.1 h
  have hpos := pos_of_mem_ranked ((sublist_keepFirst _ _).subset he)
  exact hpos

theorem pos_of_mem_faultRanking {c : FaultCount} (h : c ∈ l.faultRanking limit window name) :
    0 < c.faults := by
  obtain ⟨e, he, rfl⟩ := List.mem_map.1 h
  have hpos := pos_of_mem_ranked ((sublist_keepFirst _ _).subset he)
  exact hpos

end Ledger
end SchedLedger
