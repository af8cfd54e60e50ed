import SchedLedger.Account.Table
import Mathlib.Data.List.Induction
import Mathlib.Data.List.Nodup
import Mathlib.Data.List.Perm.Subperm

/-! Admission, first come first served. The keys of a table are the first distinct ones that were
offered to it, as many as there is room for; whatever comes later and is not among them is refused. -/

namespace SchedLedger

variable {κ : Type} [DecidableEq κ] {ks js : List κ} {k : κ} {n : Nat}

/-- The first `n` distinct keys of those offered, in the order in which they came. -/
def admitted (n : Nat) (offered : List κ) : List κ :=
  offered.eraseDups.take n

theorem eraseDups_concat_of_mem (h : k ∈ ks) : (ks ++ [k]).eraseDups = ks.eraseDups := by
  rw [List.eraseDups_append]
  simp [List.removeAll, h]

theorem eraseDups_concat_of_notMem (h : k ∉ ks) : (ks ++ [k]).eraseDups = ks.eraseDups ++ [k] := by
  rw [List.eraseDups_append]
  simp [List.removeAll, h, List.eraseDups_cons]

theorem nodup_eraseDups (ks : List κ) : ks.eraseDups.Nodup := by
  induction ks using List.reverseRecOn with
  | nil => simp
  | append_singleton ks k ih =>
    by_cases h : k ∈ ks
    · rwa [eraseDups_concat_of_mem h]
    · rw [eraseDups_concat_of_notMem h]
      exact List.nodup_append.2 ⟨ih, List.nodup_singleton k, by simp; grind⟩

theorem eraseDups_sublist (ks : List κ) : ks.eraseDups.Sublist ks := by
  induction ks using List.reverseRecOn with
  | nil => exact .slnil
  | append_singleton ks k ih =>
    by_cases h : k ∈ ks
    · rw [eraseDups_concat_of_mem h]
      exact ih.trans (List.sublist_append_left _ _)
    · rw [eraseDups_concat_of_notMem h]
      exact ih.append_right [k]

theorem eraseDups_of_nodup (h : ks.Nodup) : ks.eraseDups = ks := by
  induction ks using List.reverseRecOn with
  | nil => rfl
  | append_singleton ks k ih =>
    rw [← List.concat_eq_append, List.nodup_concat] at h
    rw [eraseDups_concat_of_notMem h.1, ih h.2]

theorem length_eraseDups_le (h : ks ⊆ js) : ks.eraseDups.length ≤ js.eraseDups.length := by
  apply ((nodup_eraseDups ks).subperm ?_).length_le
  intro k hk
  exact List.mem_eraseDups.2 (h (List.mem_eraseDups.1 hk))

theorem eraseDups_perm (h : ks.Perm js) : ks.eraseDups.Perm js.eraseDups := by
  rw [List.perm_ext_iff_of_nodup (nodup_eraseDups ks) (nodup_eraseDups js)]
  intro k
  rw [List.mem_eraseDups, List.mem_eraseDups, h.mem_iff]

@[simp] theorem admitted_nil : admitted n ([] : List κ) = [] := by
  simp [admitted]

theorem mem_of_mem_admitted (h : k ∈ admitted n ks) : k ∈ ks :=
  List.mem_eraseDups.1 (List.mem_of_mem_take h)

theorem nodup_admitted (n : Nat) (ks : List κ) : (admitted n ks).Nodup :=
  (nodup_eraseDups ks).sublist (List.take_sublist _ _)

theorem length_admitted_le (n : Nat) (ks : List κ) : (admitted n ks).length ≤ n :=
  List.length_take_le _ _

/-- With room for every key nobody is left out. -/
theorem admitted_eq_eraseDups (h : ks.eraseDups.length ≤ n) : admitted n ks = ks.eraseDups :=
  List.take_of_length_le h

/-- While there is room left, every key so far was admitted. -/
theorem mem_admitted_of_room (hk : k ∈ ks) (h : (admitted n ks).length < n) : k ∈ admitted n ks := by
  have hlen : ks.eraseDups.length ≤ n := by
    rw [admitted, List.length_take] at h
    omega
  rw [admitted_eq_eraseDups hlen]
  exact List.mem_eraseDups.2 hk

theorem admitted_concat_of_mem (h : k ∈ admitted n ks) : admitted n (ks ++ [k]) = admitted n ks := by
  rw [admitted, eraseDups_concat_of_mem (mem_of_mem_admitted h), admitted]

theorem admitted_concat_of_room (hk : k ∉ admitted n ks) (h : (admitted n ks).length < n) :
    admitted n (ks ++ [k]) = admitted n ks ++ [k] := by
  have hnew : k ∉ ks := fun hks => hk (mem_admitted_of_room hks h)
  have hlen : ks.eraseDups.length < n := by
    rw [admitted, List.length_take] at h
    omega
  rw [admitted, eraseDups_concat_of_notMem hnew, admitted_eq_eraseDups (Nat.le_of_lt hlen)]
  exact List.take_of_length_le (by simp; omega)

/-- Without room nothing is admitted any more. -/
theorem admitted_concat_of_full (h : ¬ (admitted n ks).length < n) :
    admitted n (ks ++ [k]) = admitted n ks := by
  have hlen : n ≤ ks.eraseDups.length := by
    rw [admitted, List.length_take] at h
    omega
  by_cases hk : k ∈ ks
  · rw [admitted, eraseDups_concat_of_mem hk, admitted]
  · rw [admitted, eraseDups_concat_of_notMem hk, List.take_append_of_le_length hlen, admitted]

theorem mem_admitted_concat (h : k ∈ admitted n ks) (j : κ) : k ∈ admitted n (ks ++ [j]) := by
  by_cases hj : j ∈ admitted n ks
  · rwa [admitted_concat_of_mem hj]
  · by_cases hroom : (admitted n ks).length < n
    · rw [admitted_concat_of_room hj hroom]
      exact List.mem_append_left _ h
    · rwa [admitted_concat_of_full hroom]

theorem length_eraseDups_le_of_admitted (h : ∀ k ∈ ks, k ∈ admitted n ks) :
    ks.eraseDups.length ≤ n := by
  have hsub : ks.eraseDups ⊆ admitted n ks := fun k hk => h k (List.mem_eraseDups.1 hk)
  exact Nat.le_trans ((nodup_eraseDups ks).subperm hsub).length_le (length_admitted_le n ks)

end SchedLedger
