import SchedLedger.Replay.Run
import SchedLedger.Trace.Reader

/-! Accepted traces. Every record is checked before it is kept, so an accepted trace never declares the idle
task and stays within the units that a replay can have: whoever accepts a trace, and table sizes, can replay
them. -/

namespace SchedLedger

/-! The greatest of some words -/

theorem lawful_maxOfLe {α : Type} [LE α] [DecidableLE α] [Std.IsLinearOrder α] :
    @Std.LawfulOrderMax α maxOfLe _ :=
  letI : Max α := maxOfLe
  { max_eq_or a b := by
      change (if a ≤ b then b else a) = a ∨ (if a ≤ b then b else a) = b
      split
      · exact .inr rfl
      · exact .inl rfl
    max_le_iff a b c := by
      change (if a ≤ b then b else a) ≤ c ↔ a ≤ c ∧ b ≤ c
      split
      · next hab => exact ⟨fun hbc => ⟨Std.le_trans hab hbc, hbc⟩, And.right⟩
      · next hab =>
        have hba : b ≤ a := Std.le_total.resolve_left hab
        exact ⟨fun hac => ⟨hac, Std.le_trans hba hac⟩, And.left⟩ }

instance lawfulOrderMaxUInt32 : Std.LawfulOrderMax UInt32 := lawful_maxOfLe

instance lawfulOrderMaxUInt64 : Std.LawfulOrderMax UInt64 := lawful_maxOfLe

/-! Records -/

theorem exists_of_mem_mapM {α β ε : Type} {f : α → Except ε β} {xs : List α} {ys : List β}
    (h : xs.mapM f = .ok ys) {y : β} (hy : y ∈ ys) : ∃ x ∈ xs, f x = .ok y := by
  induction xs generalizing ys with
  | nil =>
    cases h
    cases hy
  | cons x xs ih =>
    rw [List.mapM_cons] at h
    cases hx : f x with
    | error e => rw [hx] at h; cases h
    | ok z =>
      cases hxs : xs.mapM f with
      | error e => rw [hx, hxs] at h; cases h
      | ok zs =>
        rw [hx, hxs] at h
        cases h
        rcases List.mem_cons.1 hy with rfl | hy
        · exact ⟨x, List.mem_cons_self, hx⟩
        · obtain ⟨x', hx', hf⟩ := ih hxs hy
          exact ⟨x', List.mem_cons_of_mem _ hx', hf⟩

def Record.Fit : Record → Prop
  | .task d => d.pid ≠ 0
  | .event e => e.unit.toNat < unitLimit

theorem Record.fit_of_checked {found kept : Record} (h : found.checked = .ok kept) : kept.Fit := by
  cases found with
  | task d =>
    simp only [checked] at h
    split at h
    · cases h
    · next hpid => cases h; exact hpid
  | event e =>
    simp only [checked] at h
    split at h
    · cases h
    · next hunit => cases h; exact Nat.lt_of_not_le hunit

theorem Record.fit_of_bind {result : Except RecordError Record} {kept : Record}
    (h : result >>= Record.checked = .ok kept) : kept.Fit := by
  cases result with
  | error cause => cases h
  | ok found => exact fit_of_checked h

namespace Trace

variable {reader : RecordReader} {content : Bytes} {trace : Trace}

/-- A line yields only what passed the check, whoever finds the record in it. -/
theorem fit_of_readLine {number : Nat} {line : Bytes} {record : Record}
    (h : readLine reader number line = .ok (some record)) : record.Fit := by
  unfold readLine at h
  split at h
  · cases h
  · next s hs =>
    dsimp only at h
    split at h
    · cases h
    · split at h
      · next kept hkept =>
        cases h
        exact Record.fit_of_bind hkept
      · cases h

theorem exists_records (h : readWith reader content = .ok trace) :
    ∃ records, trace = ofRecords records ∧ ∀ record, some record ∈ records → record.Fit := by
  unfold readWith at h
  cases hlines : readLines reader 1 (Text.lines 0x0A content) with
  | error cause => rw [hlines] at h; cases h
  | ok records =>
    rw [hlines] at h
    cases h
    refine ⟨records, rfl, fun record hrecord => ?_⟩
    obtain ⟨l, -, hl⟩ := exists_of_mem_mapM hlines hrecord
    exact fit_of_readLine hl

/-- Which trace a text holds can be decided, unlike which error it causes. -/
theorem read_eq_ok (h : (read content).toOption = some trace) : read content = .ok trace := by
  cases hread : read content with
  | error cause =>
    rw [hread] at h
    cases h
  | ok found =>
    rw [hread] at h
    cases h
    rfl

theorem pid_ne_zero (h : readWith reader content = .ok trace) : ∀ d ∈ trace.tasks, d.pid ≠ 0 := by
  obtain ⟨records, rfl, hfit⟩ := exists_records h
  intro d hd
  obtain ⟨record, hrecord, htask⟩ := List.mem_filterMap.1 hd
  unfold task? at htask
  split at htask
  · cases htask
    exact hfit _ hrecord
  · cases htask

theorem unit_lt (h : readWith reader content = .ok trace) : ∀ e ∈ trace.events, e.unit.toNat < unitLimit := by
  obtain ⟨records, rfl, hfit⟩ := exists_records h
  intro e he
  obtain ⟨record, hrecord, hevent⟩ := List.mem_filterMap.1 he
  unfold event? at hevent
  split at hevent
  · cases hevent
    exact hfit _ hrecord
  · cases hevent

end Trace

namespace Replay

variable {trace : Trace}

theorem toNat_unitsFor (h : ∀ e ∈ trace.events, e.unit.toNat < unitLimit) :
    (unitsFor trace none).toNat = (trace.maxUnit.map fun unit => unit.toNat + 1).getD 1 := by
  rw [unitsFor, Option.getD_none]
  cases hmax : trace.maxUnit with
  | none => rfl
  | some unit =>
    obtain ⟨e, he, rfl⟩ := List.mem_map.1 (List.max?_mem hmax)
    have hunit := h e he
    simp only [unitLimit] at hunit
    rw [Option.map_some, Option.getD_some, UInt64.toNat_add, UInt32.toNat_toUInt64, UInt64.toNat_one]
    omega

theorem unit_lt_unitsFor (h : ∀ e ∈ trace.events, e.unit.toNat < unitLimit) :
    ∀ e ∈ trace.events, e.unit.toNat < (unitsFor trace none).toNat := by
  intro e he
  rw [toNat_unitsFor h]
  cases hmax : trace.maxUnit with
  | none =>
    rw [Trace.maxUnit, List.max?_eq_none_iff, List.map_eq_nil_iff] at hmax
    rw [hmax] at he
    cases he
  | some unit =>
    have hle := (List.max?_eq_some_iff.1 hmax).2 e.unit (List.mem_map_of_mem he)
    rw [UInt32.le_iff_toNat_le] at hle
    exact Nat.lt_succ_of_le hle

theorem unitsFor_range (h : ∀ e ∈ trace.events, e.unit.toNat < unitLimit) :
    0 < (unitsFor trace none).toNat ∧ (unitsFor trace none).toNat ≤ unitLimit := by
  rw [toNat_unitsFor h]
  cases hmax : trace.maxUnit with
  | none => exact ⟨Nat.one_pos, by decide⟩
  | some unit =>
    obtain ⟨e, he, rfl⟩ := List.mem_map.1 (List.max?_mem hmax)
    exact ⟨Nat.succ_pos _, h e he⟩

/-- A trace within the limits starts a fresh replay that has a unit for each of its events. -/
theorem forTrace_eq (h : ∀ e ∈ trace.events, e.unit.toNat < unitLimit) {caps : Capacities}
    (hcaps : caps.check = .ok ()) :
    forTrace trace none caps =
      .ok ⟨.new (unitsFor trace none).toNat caps, .ofDeclarations trace.tasks, unitsFor trace none⟩ := by
  obtain ⟨hpos, hle⟩ := unitsFor_range h
  have hzero : unitsFor trace none ≠ 0 := fun heq => by
    rw [heq] at hpos
    cases hpos
  rw [forTrace, start, if_neg hzero, if_neg (Nat.not_lt.2 hle), hcaps]
  rfl

end Replay
end SchedLedger
