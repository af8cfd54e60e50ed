import SchedLedger.Account.Table
import Mathlib.Data.List.Nodup
import Mathlib.Tactic.ByContra

/-! Tables by their keys and values: what every operation does to both, and the three ways in which
an upsert can go. -/

namespace SchedLedger.Table

variable {κ ν σ : Type}

@[simp] theorem keys_new (name : String) (capacity : UInt64) :
    (new name capacity : Table κ ν).keys = [] := rfl

@[simp] theorem length_keys (t : Table κ ν) : t.keys.length = t.size := by
  simp [keys, size]

@[simp] theorem keys_clear (t : Table κ ν) : t.clear.2.keys = [] := rfl

@[simp] theorem size_clear (t : Table κ ν) : t.clear.2.size = 0 := rfl

@[simp] theorem dropped_clear (t : Table κ ν) : t.clear.2.dropped = t.dropped := rfl

@[simp] theorem capacity_clear (t : Table κ ν) : t.clear.2.capacity = t.capacity := rfl

@[simp] theorem occupied_clear (t : Table κ ν) : t.clear.2.occupied = t.occupied - t.size := rfl

@[simp] theorem keys_append (t : Table κ ν) (k : κ) (v : ν) : (t.append k v).keys = t.keys ++ [k] := by
  simp [append, keys]

variable [DecidableEq κ] {t : Table κ ν} {k j : κ} {v : ν}

@[simp] theorem get?_new (name : String) (capacity : UInt64) :
    (new name capacity : Table κ ν).get? k = none := rfl

@[simp] theorem get?_clear (t : Table κ ν) : t.clear.2.get? k = none := rfl

theorem get?_eq_none_iff : t.get? k = none ↔ k ∉ t.keys := by
  simp only [get?, keys, Option.map_eq_none_iff, List.find?_eq_none, List.mem_map, decide_eq_true_eq]
  constructor
  · rintro h ⟨e, he, rfl⟩
    exact h e he rfl
  · intro h e he hk
    exact h ⟨e, he, hk⟩

theorem mem_keys_of_get? (h : t.get? k = some v) : k ∈ t.keys := by
  by_contra hk
  rw [get?_eq_none_iff.2 hk] at h
  cases h

theorem exists_get?_of_mem_keys (h : k ∈ t.keys) : ∃ v, t.get? k = some v := by
  rw [← Option.ne_none_iff_exists']
  exact fun hnone => get?_eq_none_iff.1 hnone h

theorem mem_entries_of_get? (h : t.get? k = some v) : (k, v) ∈ t.entries := by
  simp only [get?, Option.map_eq_some_iff] at h
  obtain ⟨e, he, rfl⟩ := h
  have hk : e.1 = k := by simpa using List.find?_some he
  subst hk
  exact List.mem_of_find?_eq_some he

theorem get?_of_mem_entries (hnodup : t.keys.Nodup) (h : (k, v) ∈ t.entries) : t.get? k = some v := by
  obtain ⟨w, hw⟩ := exists_get?_of_mem_keys (List.mem_map_of_mem h)
  have heq := List.inj_on_of_nodup_map hnodup (mem_entries_of_get? hw) h rfl
  obtain ⟨-, rfl⟩ := Prod.mk.inj heq
  exact hw

@[simp] theorem keys_put (t : Table κ ν) (k : κ) (v : ν) : (t.put k v).keys = t.keys := by
  unfold put keys
  rw [List.map_map]
  apply List.map_congr_left
  intro e _
  simp only [Function.comp_apply]
  split
  · next h => exact h.symm
  · rfl

@[simp] theorem size_put (t : Table κ ν) (k : κ) (v : ν) : (t.put k v).size = t.size := by
  simp [put, size]

theorem get?_put_self (h : k ∈ t.keys) : (t.put k v).get? k = some v := by
  obtain ⟨_, _, entries, _, _⟩ := t
  simp only [put, get?, keys] at *
  induction entries with
  | nil => cases h
  | cons e es ih =>
    by_cases he : e.1 = k
    · simp [he]
    · have hes : k ∈ es.map Prod.fst := by
        rcases List.mem_cons.1 h with h | h
        · exact absurd h.symm he
        · exact h
      simp only [List.map_cons, he, if_false]
      rw [List.find?_cons_of_neg (by simpa using he)]
      exact ih hes

theorem get?_put_of_ne (h : j ≠ k) : (t.put k v).get? j = t.get? j := by
  obtain ⟨_, _, entries, _, _⟩ := t
  simp only [put, get?]
  induction entries with
  | nil => rfl
  | cons e es ih =>
    by_cases he : e.1 = k
    · have hj : e.1 ≠ j := fun hej => h (hej.symm.trans he)
      simp only [List.map_cons, he, if_true]
      rw [List.find?_cons_of_neg (by simpa using h.symm), List.find?_cons_of_neg (by simpa using hj)]
      exact ih
    · simp only [List.map_cons, he, if_false, List.find?_cons]
      split
      · rfl
      · exact ih

theorem get?_append_self (h : k ∉ t.keys) : (t.append k v).get? k = some v := by
  have hnone : t.entries.find? (·.1 = k) = none := by
    simpa [get?] using get?_eq_none_iff.2 h
  simp [append, get?, List.find?_append, hnone]

theorem get?_append_of_ne (h : j ≠ k) : (t.append k v).get? j = t.get? j := by
  simp [append, get?, List.find?_append, h.symm]

/-- An upsert updates a present key, admits a new one while there is room, or else refuses it. -/
theorem upsertWith_cases (t : Table κ ν) (k : κ) (init : σ → ν × σ) (update : ν → σ → ν × σ) (s : σ) :
    (∃ v, t.get? k = some v ∧
      t.upsertWith k init update s = (.updated, t.put k (update v s).1, (update v s).2)) ∨
    (k ∉ t.keys ∧ t.occupied < t.capacity.toNat ∧
      t.upsertWith k init update s = (.inserted, t.append k (init s).1, (init s).2)) ∨
    (k ∉ t.keys ∧ ¬ t.occupied < t.capacity.toNat ∧
      t.upsertWith k init update s = (.dropped, t.refuse, s)) := by
  cases h : t.get? k with
  | some v => exact .inl ⟨v, rfl, by simp [upsertWith, h]⟩
  | none =>
    have hk := get?_eq_none_iff.1 h
    by_cases hroom : t.occupied < t.capacity.toNat
    · exact .inr (.inl ⟨hk, hroom, by simp [upsertWith, h, hroom]⟩)
    · exact .inr (.inr ⟨hk, hroom, by simp [upsertWith, h, hroom]⟩)

/-- What an upsert leaves under each key. -/
theorem get?_upsertWith (t : Table κ ν) (k : κ) (init : σ → ν × σ) (update : ν → σ → ν × σ) (s : σ) (j : κ) :
    (t.upsertWith k init update s).2.1.get? j =
      if j = k then
        match t.get? k with
        | some v => some (update v s).1
        | none => if t.occupied < t.capacity.toNat then some (init s).1 else none
      else t.get? j := by
  rcases t.upsertWith_cases k init update s with ⟨v, hv, hu⟩ | ⟨hk, hroom, hu⟩ | ⟨hk, hfull, hu⟩
  · rw [hu]
    split
    · next hj => rw [hj, get?_put_self (mem_keys_of_get? hv), hv]
    · next hj => exact get?_put_of_ne hj
  · rw [hu]
    split
    · next hj => rw [hj, get?_append_self hk, get?_eq_none_iff.2 hk]
    · next hj => exact get?_append_of_ne hj
  · rw [hu]
    split
    · next hj =>
      have hnone : t.get? k = none := get?_eq_none_iff.2 hk
      rw [hj, hnone]
      exact hnone
    · rfl

/-- What holds of all values, of a first value and of an updated one, holds of all values after an upsert. -/
theorem forall_get?_upsertWith {P : κ → ν → Prop} {init : σ → ν × σ} {update : ν → σ → ν × σ} {s : σ}
    (h : ∀ j v, t.get? j = some v → P j v) (hinit : P k (init s).1)
    (hupdate : ∀ v, P k v → P k (update v s).1) :
    ∀ j v, (t.upsertWith k init update s).2.1.get? j = some v → P j v := by
  intro j v hv
  rw [get?_upsertWith] at hv
  split at hv
  · next hj =>
    subst hj
    split at hv
    · next u hu =>
      cases hv
      exact hupdate u (h j u hu)
    · split at hv
      · cases hv
        exact hinit
      · cases hv
  · exact h j v hv

end SchedLedger.Table
