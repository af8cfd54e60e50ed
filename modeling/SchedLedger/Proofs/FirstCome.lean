import SchedLedger.Proofs.Admission
import SchedLedger.Proofs.Table

/-! First come, first served, over whole runs. A table that is told of upserts and clearings agrees with an
ideal map that knows nothing of entries and counters: it only remembers every offer since the last clearing,
and reads off them whom there was room for and what became of their values. -/

namespace SchedLedger.Table

/-- What a table is told. The closures of an upsert read and change a state of their own. -/
inductive Request (κ ν σ : Type)
  | upsert (k : κ) (init : σ → ν × σ) (update : ν → σ → ν × σ)
  | clear

/-- What a table answers: what became of a key, or how many entries were dropped. -/
inductive Answer
  | upserted (a : Admission)
  | cleared (removed : Nat)
deriving DecidableEq

variable {κ ν σ : Type} [DecidableEq κ]

def serve (t : Table κ ν) (s : σ) : Request κ ν σ → Answer × Table κ ν × σ
  | .upsert k init update =>
    let u := t.upsertWith k init update s
    (.upserted u.1, u.2)
  | .clear => (.cleared t.clear.1, t.clear.2, s)

def serveAll (t : Table κ ν) (s : σ) : List (Request κ ν σ) → List Answer × Table κ ν × σ
  | [] => ([], t, s)
  | q :: qs =>
    let one := t.serve s q
    let rest := one.2.1.serveAll one.2.2 qs
    (one.1 :: rest.1, rest.2)

/-- A key that is offered: its value if the offer is the first one, and otherwise the change of the value. -/
structure Offer (κ ν : Type) where
  key : κ
  first : ν
  next : ν → ν

def Offer.value? (k : κ) (offers : List (Offer κ ν)) : Option ν :=
  match offers.filter (·.key = k) with
  | [] => none
  | o :: later => some (later.foldl (fun v o => o.next v) o.first)

/-- The ideal map: all offers since the last clearing, admitted or not, and the state of the closures. -/
structure Ideal (κ ν σ : Type) where
  offers : List (Offer κ ν)
  state : σ

namespace Ideal

/-- The first `n` distinct keys of those offered. -/
def keys (n : Nat) (m : Ideal κ ν σ) : List κ :=
  admitted n (m.offers.map Offer.key)

def get? (n : Nat) (m : Ideal κ ν σ) (k : κ) : Option ν :=
  if k ∈ m.keys n then Offer.value? k m.offers else none

/-- A present key is updated, another one is inserted while fewer than `n` keys are present, and the rest is
dropped. The closure that is called decides on the next state; on a drop none is. -/
def serve (n : Nat) (m : Ideal κ ν σ) : Request κ ν σ → Answer × Ideal κ ν σ
  | .upsert k init update =>
    let offers := m.offers ++ [⟨k, (init m.state).1, fun v => (update v m.state).1⟩]
    match m.get? n k with
    | some v => (.upserted .updated, ⟨offers, (update v m.state).2⟩)
    | none =>
      if (m.keys n).length < n then (.upserted .inserted, ⟨offers, (init m.state).2⟩)
      else (.upserted .dropped, ⟨offers, m.state⟩)
  | .clear => (.cleared (m.keys n).length, ⟨[], m.state⟩)

def serveAll (n : Nat) (m : Ideal κ ν σ) : List (Request κ ν σ) → List Answer × Ideal κ ν σ
  | [] => ([], m)
  | q :: qs =>
    let one := m.serve n q
    let rest := one.2.serveAll n qs
    (one.1 :: rest.1, rest.2)

end Ideal

namespace Offer

variable {k : κ} {offers : List (Offer κ ν)} {o : Offer κ ν}

theorem value?_eq_none_iff : value? k offers = none ↔ k ∉ offers.map key := by
  unfold value?
  cases h : offers.filter (·.key = k) with
  | nil =>
    rw [List.filter_eq_nil_iff] at h
    simpa [List.mem_map] using fun o ho hk => h o ho (by simpa using hk)
  | cons o later =>
    have ho : o ∈ offers.filter (·.key = k) := h ▸ List.mem_cons_self
    rw [List.mem_filter] at ho
    simp only [reduceCtorEq, false_iff, not_not]
    exact List.mem_map.2 ⟨o, ho.1, by simpa using ho.2⟩

theorem value?_concat_of_ne (h : o.key ≠ k) : value? k (offers ++ [o]) = value? k offers := by
  simp [value?, h]

theorem value?_concat_of_none (h : value? o.key offers = none) :
    value? o.key (offers ++ [o]) = some o.first := by
  have hnone : offers.filter (·.key = o.key) = [] := by
    rw [List.filter_eq_nil_iff]
    intro p hp hkey
    exact value?_eq_none_iff.1 h (List.mem_map.2 ⟨p, hp, by simpa using hkey⟩)
  simp [value?, hnone]

theorem value?_concat_of_some {v : ν} (h : value? o.key offers = some v) :
    value? o.key (offers ++ [o]) = some (o.next v) := by
  unfold value? at h ⊢
  rw [List.filter_append]
  cases hown : offers.filter (·.key = o.key) with
  | nil => simp [hown] at h
  | cons first later =>
    rw [hown] at h
    cases h
    simp

end Offer

structure Refines (n : Nat) (t : Table κ ν) (m : Ideal κ ν σ) : Prop where
  capacity : t.capacity.toNat = n
  keys : t.keys = m.keys n
  values : ∀ k, t.get? k = m.get? n k
  occupied : t.occupied = t.size

theorem Ideal.get?_of_mem {n : Nat} {m : Ideal κ ν σ} {k : κ} (h : k ∈ m.keys n) :
    m.get? n k = Offer.value? k m.offers :=
  if_pos h

theorem Ideal.get?_of_notMem {n : Nat} {m : Ideal κ ν σ} {k : κ} (h : k ∉ m.keys n) : m.get? n k = none :=
  if_neg h

namespace Refines

variable {n : Nat} {t : Table κ ν} {m : Ideal κ ν σ}

theorem new (name : String) (capacity : UInt64) (s : σ) :
    Refines capacity.toNat (Table.new name capacity : Table κ ν) ⟨[], s⟩ where
  capacity := rfl
  keys := by simp [Ideal.keys]
  values k := by simp [Ideal.get?, Ideal.keys]
  occupied := rfl

theorem size_le (h : Refines n t m) : t.size ≤ n := by
  rw [← length_keys, h.keys]
  exact length_admitted_le n _

theorem room_iff (h : Refines n t m) : t.occupied < t.capacity.toNat ↔ (m.keys n).length < n := by
  rw [h.occupied, h.capacity, ← length_keys, h.keys]

theorem put (h : Refines n t m) {o : Offer κ ν} {v : ν} (hv : t.get? o.key = some v) (s : σ) :
    Refines n (t.put o.key (o.next v)) ⟨m.offers ++ [o], s⟩ := by
  have hmem : o.key ∈ m.keys n := h.keys ▸ mem_keys_of_get? hv
  have hkeys : Ideal.keys n ⟨m.offers ++ [o], s⟩ = m.keys n := by
    rw [Ideal.keys, List.map_append, List.map_singleton]
    exact admitted_concat_of_mem hmem
  refine ⟨h.capacity, ?_, ?_, ?_⟩
  · rw [keys_put, hkeys, h.keys]
  · intro k
    have hold := h.values k
    by_cases hk : o.key = k
    · subst hk
      rw [hv, Ideal.get?_of_mem hmem] at hold
      rw [get?_put_self (mem_keys_of_get? hv), Ideal.get?_of_mem (hkeys ▸ hmem),
        Offer.value?_concat_of_some hold.symm]
    · rw [get?_put_of_ne (Ne.symm hk), hold]
      simp only [Ideal.get?, hkeys, Offer.value?_concat_of_ne hk]
  · rw [size_put]
    exact h.occupied

theorem append (h : Refines n t m) {o : Offer κ ν} (hk : o.key ∉ t.keys)
    (hroom : t.occupied < t.capacity.toNat) (s : σ) :
    Refines n (t.append o.key o.first) ⟨m.offers ++ [o], s⟩ := by
  have hroom' := h.room_iff.1 hroom
  have hnew : o.key ∉ m.keys n := h.keys ▸ hk
  have hkeys : Ideal.keys n ⟨m.offers ++ [o], s⟩ = m.keys n ++ [o.key] := by
    rw [Ideal.keys, List.map_append, List.map_singleton]
    exact admitted_concat_of_room hnew hroom'
  have hfirst : Offer.value? o.key m.offers = none :=
    Offer.value?_eq_none_iff.2 fun hmem => hnew (mem_admitted_of_room hmem hroom')
  refine ⟨h.capacity, ?_, ?_, ?_⟩
  · rw [keys_append, hkeys, h.keys]
  · intro k
    by_cases hk' : o.key = k
    · subst hk'
      have hin : o.key ∈ Ideal.keys n ⟨m.offers ++ [o], s⟩ := by simp [hkeys]
      rw [get?_append_self hk, Ideal.get?_of_mem hin, Offer.value?_concat_of_none hfirst]
    · rw [get?_append_of_ne (Ne.symm hk'), h.values k]
      simp only [Ideal.get?, hkeys, List.mem_append, List.mem_singleton, Ne.symm hk', or_false,
        Offer.value?_concat_of_ne hk']
  · simp only [Table.append, size, List.length_append, List.length_singleton]
    rw [h.occupied, size]

theorem refuse (h : Refines n t m) {o : Offer κ ν} (hk : o.key ∉ t.keys)
    (hfull : ¬ t.occupied < t.capacity.toNat) (s : σ) :
    Refines n t.refuse ⟨m.offers ++ [o], s⟩ := by
  have hfull' : ¬ (m.keys n).length < n := fun hlt => hfull (h.room_iff.2 hlt)
  have hkeys : Ideal.keys n ⟨m.offers ++ [o], s⟩ = m.keys n := by
    rw [Ideal.keys, List.map_append, List.map_singleton]
    exact admitted_concat_of_full hfull'
  refine ⟨h.capacity, ?_, ?_, h.occupied⟩
  · rw [hkeys]
    exact h.keys
  · intro k
    have hold : t.refuse.get? k = m.get? n k := h.values k
    by_cases hk' : k ∈ m.keys n
    · have hne : o.key ≠ k := fun heq => hk (by rw [h.keys, heq]; exact hk')
      rw [hold, Ideal.get?_of_mem hk', Ideal.get?_of_mem (hkeys ▸ hk'), Offer.value?_concat_of_ne hne]
    · rw [hold, Ideal.get?_of_notMem hk', Ideal.get?_of_notMem (hkeys ▸ hk')]

theorem serve (h : Refines n t m) (q : Request κ ν σ) :
    (t.serve m.state q).1 = (m.serve n q).1 ∧
      (t.serve m.state q).2.2 = (m.serve n q).2.state ∧
      Refines n (t.serve m.state q).2.1 (m.serve n q).2 := by
  cases q with
  | clear =>
    refine ⟨?_, rfl, h.capacity, ?_, ?_, ?_⟩
    · simp only [Table.serve, Ideal.serve, Table.clear, ← length_keys, h.keys]
    · simp [Table.serve, Ideal.serve, Ideal.keys]
    · intro k
      simp [Table.serve, Ideal.serve, Ideal.get?, Ideal.keys]
    · simp [Table.serve, h.occupied]
  | upsert k init update =>
    let o : Offer κ ν := ⟨k, (init m.state).1, fun v => (update v m.state).1⟩
    have hget := h.values k
    -- agreeing on the keys and on the room, table and ideal map go the same of the three ways
    rcases t.upsertWith_cases k init update m.state with ⟨v, hv, hu⟩ | ⟨hk, hroom, hu⟩ | ⟨hk, hfull, hu⟩
    · have hserve : m.serve n (.upsert k init update) =
          (.upserted .updated, ⟨m.offers ++ [o], (update v m.state).2⟩) := by
        simp only [Ideal.serve, ← hget, hv, o]
      rw [hserve, Table.serve, hu]
      exact ⟨rfl, rfl, Refines.put (o := o) h hv _⟩
    · have hserve : m.serve n (.upsert k init update) =
          (.upserted .inserted, ⟨m.offers ++ [o], (init m.state).2⟩) := by
        simp only [Ideal.serve, ← hget, get?_eq_none_iff.2 hk, if_pos (h.room_iff.1 hroom), o]
      rw [hserve, Table.serve, hu]
      exact ⟨rfl, rfl, Refines.append (o := o) h hk hroom _⟩
    · have hserve : m.serve n (.upsert k init update) =
          (.upserted .dropped, ⟨m.offers ++ [o], m.state⟩) := by
        simp only [Ideal.serve, ← hget, get?_eq_none_iff.2 hk,
          if_neg fun hlt => hfull (h.room_iff.2 hlt), o]
      rw [hserve, Table.serve, hu]
      exact ⟨rfl, rfl, Refines.refuse (o := o) h hk hfull _⟩

theorem serveAll (h : Refines n t m) (qs : List (Request κ ν σ)) :
    (t.serveAll m.state qs).1 = (m.serveAll n qs).1 ∧
      (t.serveAll m.state qs).2.2 = (m.serveAll n qs).2.state ∧
      Refines n (t.serveAll m.state qs).2.1 (m.serveAll n qs).2 := by
  induction qs generalizing t m with
  | nil => exact ⟨rfl, rfl, h⟩
  | cons q qs ih =>
    obtain ⟨hanswer, hstate, hnext⟩ := h.serve q
    obtain ⟨hanswers, hfinal, hrest⟩ := ih hnext
    simp only [Table.serveAll, Ideal.serveAll, hanswer, hstate]
    exact ⟨by rw [hanswers], hfinal, hrest⟩

end Refines

/-- The closure that an upsert called. -/
inductive Call
  | init
  | update
deriving DecidableEq

/-- The same request with closures that also enter their calls in a log. -/
def Request.logged : Request κ ν σ → Request κ ν (σ × List Call)
  | .upsert k init update =>
    .upsert k (fun s => ((init s.1).1, (init s.1).2, s.2 ++ [.init]))
      (fun v s => ((update v s.1).1, (update v s.1).2, s.2 ++ [.update]))
  | .clear => .clear

def Answer.call? : Answer → Option Call
  | .upserted .inserted => some .init
  | .upserted .updated => some .update
  | .upserted .dropped | .cleared _ => none

theorem serve_logged (t : Table κ ν) (s : σ) (log : List Call) (q : Request κ ν σ) :
    t.serve (s, log) q.logged =
      ((t.serve s q).1, (t.serve s q).2.1, (t.serve s q).2.2, log ++ (t.serve s q).1.call?.toList) := by
  cases q with
  | clear => simp [serve, Request.logged, Answer.call?]
  | upsert k init update =>
    simp only [serve, Request.logged, upsertWith]
    cases t.get? k with
    | some v => simp [Answer.call?]
    | none => by_cases hroom : t.occupied < t.capacity.toNat <;> simp [hroom, Answer.call?]

theorem serveAll_logged (t : Table κ ν) (s : σ) (log : List Call) (qs : List (Request κ ν σ)) :
    t.serveAll (s, log) (qs.map Request.logged) =
      ((t.serveAll s qs).1, (t.serveAll s qs).2.1, (t.serveAll s qs).2.2,
        log ++ (t.serveAll s qs).1.filterMap Answer.call?) := by
  induction qs generalizing t s log with
  | nil => simp [serveAll]
  | cons q qs ih =>
    simp only [List.map_cons, serveAll, serve_logged, ih]
    cases hcall : (t.serve s q).1.call? <;> simp [hcall]

theorem dropped_serve (t : Table κ ν) (s : σ) (q : Request κ ν σ) :
    (t.serve s q).2.1.dropped = t.dropped + .ofNat ([(t.serve s q).1].count (.upserted .dropped)) := by
  cases q with
  | clear => simp [serve]
  | upsert k init update =>
    rcases t.upsertWith_cases k init update s with ⟨v, -, hu⟩ | ⟨-, -, hu⟩ | ⟨-, -, hu⟩
    · simp [serve, hu, put]
    · simp [serve, hu, append]
    · simp [serve, hu, refuse]

theorem dropped_serveAll (t : Table κ ν) (s : σ) (qs : List (Request κ ν σ)) :
    (t.serveAll s qs).2.1.dropped = t.dropped + .ofNat ((t.serveAll s qs).1.count (.upserted .dropped)) := by
  induction qs generalizing t s with
  | nil => simp [serveAll]
  | cons q qs ih =>
    rw [serveAll, ih, dropped_serve, ← List.singleton_append (l := (serveAll _ _ qs).1), List.count_append,
      UInt64.ofNat_add, UInt64.add_assoc]

theorem entries_serve_of_dropped {t : Table κ ν} {s : σ} {q : Request κ ν σ}
    (h : (t.serve s q).1 = .upserted .dropped) : (t.serve s q).2.1.entries = t.entries := by
  cases q with
  | clear => cases h
  | upsert k init update =>
    rcases t.upsertWith_cases k init update s with ⟨v, -, hu⟩ | ⟨-, -, hu⟩ | ⟨-, -, hu⟩
    · simp [serve, hu] at h
    · simp [serve, hu] at h
    · simp [serve, hu, refuse]

/-- Whatever a table is told, it answers as the ideal map does. Its keys are the first distinct ones offered
since the last clearing, each with the value that all its offers make; it has counted every drop since it was
made, while the count of its entries is exact and within its capacity; a drop leaves the entries alone; and the
closures were called once for every insertion and every update, and not at all otherwise. -/
theorem firstCome_of_run (name : String) (capacity : UInt64) (s : σ) (qs : List (Request κ ν σ)) :
    let served := (new name capacity : Table κ ν).serveAll s qs
    let t := served.2.1
    let ideal := (⟨[], s⟩ : Ideal κ ν σ).serveAll capacity.toNat qs
    served.1 = ideal.1 ∧
    served.2.2 = ideal.2.state ∧
    t.keys = admitted capacity.toNat (ideal.2.offers.map Offer.key) ∧
    (∀ k, t.get? k = if k ∈ t.keys then Offer.value? k ideal.2.offers else none) ∧
    t.dropped = .ofNat (served.1.count (.upserted .dropped)) ∧
    t.occupied = t.size ∧ t.size ≤ capacity.toNat ∧
    (∀ q, (t.serve served.2.2 q).1 = .upserted .dropped →
      (t.serve served.2.2 q).2.1.entries = t.entries) ∧
    (new name capacity : Table κ ν).serveAll (s, []) (qs.map Request.logged) =
      (served.1, t, served.2.2, served.1.filterMap Answer.call?) := by
  intro served t ideal
  obtain ⟨hanswers, hstate, hrefines⟩ := (Refines.new (κ := κ) (ν := ν) name capacity s).serveAll qs
  refine ⟨hanswers, hstate, hrefines.keys, fun k => ?_, ?_, hrefines.occupied, hrefines.size_le,
    fun q => entries_serve_of_dropped, ?_⟩
  · rw [hrefines.values k, hrefines.keys]
    rfl
  · have hcount := dropped_serveAll (new name capacity : Table κ ν) s qs
    rwa [show (new name capacity : Table κ ν).dropped = 0 from rfl, UInt64.zero_add] at hcount
  · rw [serveAll_logged, List.nil_append]

/-- A table for one key: 7 is dropped beside 5, 9 takes the place after the clearing, and 7 is dropped again. -/
theorem firstCome_of_full_table :
    let count (k : Nat) : Request Nat Nat Unit := .upsert k (fun u => (1, u)) (fun v u => (v + 1, u))
    let served := (new "test" 1).serveAll () [count 5, count 7, count 5, .clear, count 9, count 9]
    let t := served.2.1
    served.1 = [.upserted .inserted, .upserted .dropped, .upserted .updated, .cleared 1,
      .upserted .inserted, .upserted .updated] ∧
    (t.serve () (count 7)).1 = .upserted .dropped ∧ t.entries = [(9, 2)] ∧
    (t.serve () (count 7)).2.1.entries = t.entries := by
  intro count served t
  have hdrop : (t.serve () (count 7)).1 = .upserted .dropped := by decide
  obtain ⟨-, -, -, -, -, -, -, hentries, -⟩ :=
    firstCome_of_run "test" 1 () [count 5, count 7, count 5, .clear, count 9, count 9]
  exact ⟨by decide, hdrop, by decide, hentries (count 7) hdrop⟩

end SchedLedger.Table
