import SchedLedger.Proofs.Account
import Mathlib.Algebra.Order.BigOperators.Group.List
import Mathlib.Algebra.Order.Group.Nat

/-! What a table amounts to as a whole. Every entry of a journal since the last reset is either in the record of
its key or was refused, so the records together never amount to more than was entered; and where each entry
counts one, the records and the refusals account for all of them. -/

namespace SchedLedger

theorem toNat_sum (xs : List UInt64) : xs.sum.toNat = (xs.map UInt64.toNat).sum % 2 ^ 64 := by
  induction xs with
  | nil => rfl
  | cons x xs ih => rw [List.sum_cons, UInt64.toNat_add, ih, List.map_cons, List.sum_cons, Nat.add_mod_mod]

theorem toNat_sum_le (xs : List UInt64) : xs.sum.toNat ≤ (xs.map UInt64.toNat).sum := by
  rw [toNat_sum]
  exact Nat.mod_le _ _

section ByKey

variable {ε κ : Type} [DecidableEq κ] (f : ε → κ) (g : ε → Nat)

theorem sum_filter_mem_cons {k : κ} {ks : List κ} (hk : k ∉ ks) (es : List ε) :
    ((es.filter (f · ∈ k :: ks)).map g).sum =
      ((es.filter (f · = k)).map g).sum + ((es.filter (f · ∈ ks)).map g).sum := by
  simp only [List.mem_cons, Bool.decide_or]
  induction es with
  | nil => rfl
  | cons e es ih =>
    by_cases he : f e = k
    · have hks : f e ∉ ks := he ▸ hk
      simp [he, hk, ih, Nat.add_assoc]
    · by_cases hks : f e ∈ ks
      · simp [he, hks, ih, Nat.add_left_comm]
      · simp [he, hks, ih]

theorem sum_by_key {ks : List κ} (h : ks.Nodup) (es : List ε) :
    (ks.map fun k => ((es.filter (f · = k)).map g).sum).sum = ((es.filter (f · ∈ ks)).map g).sum := by
  induction ks with
  | nil => simp
  | cons k ks ih =>
    rw [List.nodup_cons] at h
    rw [List.map_cons, List.sum_cons, ih h.2, sum_filter_mem_cons f g h.1]

theorem sum_filter_le (p : ε → Bool) (es : List ε) : ((es.filter p).map g).sum ≤ (es.map g).sum :=
  (List.filter_sublist.map g).sum_le_sum fun _ _ => Nat.zero_le _

theorem sum_le_mul_of_key_lt {f : ε → Nat} {g : ε → Nat} {es : List ε} {n bound : Nat}
    (hlt : ∀ e ∈ es, f e < n) (hbound : ∀ k, ((es.filter (f · = k)).map g).sum ≤ bound) :
    (es.map g).sum ≤ n * bound := by
  have hall : es.filter (f · ∈ List.range n) = es :=
    List.filter_eq_self.2 fun e he => by simpa using hlt e he
  have hsplit := sum_by_key f g (List.nodup_range (n := n)) es
  have hle := List.sum_le_card_nsmul ((List.range n).map fun k => ((es.filter (f · = k)).map g).sum) bound
    (List.forall_mem_map.2 fun k _ => hbound k)
  rw [hsplit, hall, List.length_map, List.length_range] at hle
  exact hle

end ByKey

namespace Journal

section Amounts

variable {ε κ : Type} (j : Journal ε κ)

/-- What entries amount to as numbers, with nothing lost to the width of a word. -/
def amounts (es : List ε) : Nat :=
  (es.map fun e => (j.amount e).toNat).sum

theorem amounts_append (xs ys : List ε) : j.amounts (xs ++ ys) = j.amounts xs + j.amounts ys := by
  simp [amounts]

theorem amounts_le_of_sublist {xs ys : List ε} (h : xs.Sublist ys) : j.amounts xs ≤ j.amounts ys :=
  (h.map _).sum_le_sum fun _ _ => Nat.zero_le _

theorem amounts_eq_length {j : Journal ε κ} (h : ∀ e, j.amount e = 1) (es : List ε) :
    j.amounts es = es.length := by
  simp [amounts, h]

end Amounts

variable {ε κ ν : Type} [DecidableEq κ] (j : Journal ε κ) {n : Nat}

def accepted (n : Nat) (es : List ε) : List ε :=
  es.filter fun e => j.key e ∈ admitted n (es.map j.key)

theorem toNat_total_le (k : κ) (es : List ε) :
    (j.total k es).toNat ≤ j.amounts (es.filter (j.key · = k)) := by
  have h := toNat_sum_le ((es.filter (j.key · = k)).map j.amount)
  rwa [List.map_map] at h

theorem toNat_total {es : List ε} (h : j.amounts es < 2 ^ 64) (k : κ) :
    (j.total k es).toNat = j.amounts (es.filter (j.key · = k)) := by
  have hsum := toNat_sum ((es.filter (j.key · = k)).map j.amount)
  rw [List.map_map] at hsum
  have hle : j.amounts (es.filter (j.key · = k)) ≤ j.amounts es := sum_filter_le _ _ es
  exact hsum.trans (Nat.mod_eq_of_lt (Nat.lt_of_le_of_lt hle h))

theorem accepted_concat_of_mem {es : List ε} {e : ε}
    (h : j.key e ∈ admitted n (es.map j.key)) : j.accepted n (es ++ [e]) = j.accepted n es ++ [e] := by
  rw [accepted, List.map_append, List.map_singleton, admitted_concat_of_mem h, List.filter_append]
  simp [h, accepted]

/-- A key that is admitted now was never entered before. -/
theorem accepted_concat_of_room {es : List ε} {e : ε} (h : j.key e ∉ admitted n (es.map j.key))
    (hroom : (admitted n (es.map j.key)).length < n) :
    j.accepted n (es ++ [e]) = j.accepted n es ++ [e] := by
  have hold : ∀ e' ∈ es, j.key e' ≠ j.key e := fun e' he' heq =>
    h (mem_admitted_of_room (heq ▸ List.mem_map_of_mem he') hroom)
  rw [accepted, List.map_append, List.map_singleton, admitted_concat_of_room h hroom, List.filter_append]
  congr 1
  · apply List.filter_congr
    intro e' he'
    simp [hold e' he']
  · simp

theorem accepted_concat_of_full {es : List ε} {e : ε} (h : j.key e ∉ admitted n (es.map j.key))
    (hfull : ¬ (admitted n (es.map j.key)).length < n) : j.accepted n (es ++ [e]) = j.accepted n es := by
  rw [accepted, List.map_append, List.map_singleton, admitted_concat_of_full hfull, List.filter_append]
  simp [h, accepted]

theorem length_accepted_add_refusals (n : Nat) (history : List Action) :
    (j.accepted n (j.sinceReset history)).length + j.refusals n history =
      (j.sinceReset history).length + j.refusals n (history.dropWhile (!·.isReset)) := by
  induction history with
  | nil => rfl
  | cons a past ih =>
    cases ha : a.isReset with
    | true =>
      cases a <;> cases ha
      simp [accepted, Action.isReset]
    | false =>
      rw [List.dropWhile_cons_of_pos (by simp [ha])]
      cases he : j.enter? past a with
      | none =>
        rw [sinceReset_cons j ha, he, Option.toList_none, List.append_nil, refusals_of_none j he, ih]
      | some e =>
        rw [j.sinceReset_cons_some he]
        -- one more entry on the right, and on the left either one accepted or one refused
        by_cases hin : j.key e ∈ admitted n ((j.sinceReset past).map j.key)
        · rw [j.accepted_concat_of_mem hin, refusals_of_admitted j he, List.length_append,
            List.length_append]
          · omega
          · rw [List.map_append, List.map_singleton, admitted_concat_of_mem hin]
            exact hin
        · by_cases hroom : (admitted n ((j.sinceReset past).map j.key)).length < n
          · rw [j.accepted_concat_of_room hin hroom, refusals_of_admitted j he, List.length_append,
              List.length_append]
            · omega
            · rw [List.map_append, List.map_singleton, admitted_concat_of_room hin hroom]
              exact List.mem_append_right _ (List.mem_singleton_self _)
          · rw [j.accepted_concat_of_full hin hroom, refusals_of_refused j he, List.length_append,
              List.length_singleton]
            · omega
            · rw [List.map_append, List.map_singleton, admitted_concat_of_full hroom]
              exact hin

namespace Carried

variable {j : Journal ε κ} {load : ν → UInt64} {t : Table κ ν} {history : List Action}

theorem map_load (h : j.Carried load n t history) :
    t.entries.map (fun e => load e.2) =
      (admitted n ((j.sinceReset history).map j.key)).map (j.total · (j.sinceReset history)) := by
  rw [← h.keys, Table.keys, List.map_map]
  apply List.map_congr_left
  intro e he
  exact h.load e.1 e.2 (Table.get?_of_mem_entries h.nodup_keys he)

theorem sum_loads_eq (h : j.Carried load n t history) :
    (t.entries.map fun e => (load e.2).toNat).sum =
      ((admitted n ((j.sinceReset history).map j.key)).map
        fun k => (j.total k (j.sinceReset history)).toNat).sum := by
  have hmap := congrArg (List.map UInt64.toNat) h.map_load
  rw [List.map_map, List.map_map] at hmap
  exact congrArg List.sum hmap

theorem sum_loads (h : j.Carried load n t history) (hfits : j.amounts (j.sinceReset history) < 2 ^ 64) :
    (t.entries.map fun e => (load e.2).toNat).sum = j.amounts (j.accepted n (j.sinceReset history)) := by
  rw [h.sum_loads_eq, amounts, accepted, ← sum_by_key j.key _ (nodup_admitted n _)]
  congr 1
  apply List.map_congr_left
  intro k _
  exact j.toNat_total hfits k

/-- The records together never amount to more than was entered. -/
theorem sum_loads_le (h : j.Carried load n t history) :
    (t.entries.map fun e => (load e.2).toNat).sum ≤ j.amounts (j.sinceReset history) := by
  rw [h.sum_loads_eq]
  refine (List.sum_le_sum fun k _ => j.toNat_total_le k _).trans ?_
  refine (sum_by_key j.key _ (nodup_admitted n _) _).le.trans ?_
  exact sum_filter_le _ _ (j.sinceReset history)

/-- Where each entry counts one, the entries since the last reset are as many as the records count and as the
refusals have grown by. -/
theorem accounted {t' : Table κ ν} (h : j.Carried load n t history)
    (hclosed : j.Carried load n t' (history.dropWhile (!·.isReset))) (hone : ∀ e, j.amount e = 1)
    (hfits : (j.sinceReset history).length < 2 ^ 64) :
    (j.sinceReset history).length =
      (t.entries.map fun e => (load e.2).toNat).sum + (t.dropped - t'.dropped).toNat := by
  have hsum := h.sum_loads (by rwa [amounts_eq_length hone])
  rw [amounts_eq_length hone] at hsum
  have hall := j.length_accepted_add_refusals n history
  have haccepted : (j.accepted n (j.sinceReset history)).length ≤ (j.sinceReset history).length :=
    List.length_filter_le _ _
  have hle : j.refusals n (history.dropWhile (!·.isReset)) ≤ j.refusals n history := by omega
  have hword : j.refusals n history - j.refusals n (history.dropWhile (!·.isReset)) < UInt64.size := by
    change _ < 2 ^ 64
    omega
  rw [hsum, h.dropped, hclosed.dropped, ← UInt64.ofNat_sub hle, UInt64.toNat_ofNat_of_lt' hword]
  omega

end Carried
end Journal
end SchedLedger
