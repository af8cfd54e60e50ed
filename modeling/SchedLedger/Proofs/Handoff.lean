import SchedLedger.Account.Handoff
import Mathlib.Data.Nat.Bitwise

/-! Handoffs by their halves. A pair in one word loses nothing: both of its entities come back out of it as
they went in, up to the greatest number, and the pair turned round is another word. -/

namespace SchedLedger.Handoff

variable {victim aggressor : Pid} {h h' : Handoff}

theorem toNat_victim (h : Handoff) : h.victim.toNat = h.raw.toNat / 2 ^ 32 := by
  have hraw := h.raw.toNat_lt
  rw [Handoff.victim, UInt64.toNat_toUInt32, UInt64.toNat_shiftRight, Nat.shiftRight_eq_div_pow]
  change h.raw.toNat / 2 ^ 32 % 2 ^ 32 = _
  omega

theorem toNat_aggressor (h : Handoff) : h.aggressor.toNat = h.raw.toNat % 2 ^ 32 := by
  rw [Handoff.aggressor, UInt64.toNat_toUInt32, UInt64.toNat_and]
  change (h.raw.toNat &&& (2 ^ 32 - 1)) % 2 ^ 32 = _
  rw [Nat.and_two_pow_sub_one_eq_mod, Nat.mod_mod]

/-- The two halves do not overlap, so they add up. -/
theorem toNat_packed (victim aggressor : Pid) :
    ((victim.toUInt64 <<< 32) ||| aggressor.toUInt64).toNat = victim.toNat * 2 ^ 32 + aggressor.toNat := by
  have hv := victim.toNat_lt
  have ha := aggressor.toNat_lt
  have hfits : victim.toNat <<< 32 < 2 ^ 64 := by
    rw [Nat.shiftLeft_eq]
    omega
  rw [UInt64.toNat_or, UInt64.toNat_shiftLeft, UInt32.toNat_toUInt64, UInt32.toNat_toUInt64]
  change victim.toNat <<< 32 % 2 ^ 64 ||| aggressor.toNat = _
  rw [Nat.mod_eq_of_lt hfits, ← Nat.shiftLeft_add_eq_or_of_lt ha, Nat.shiftLeft_eq]

theorem eq_of_halves (hv : h.victim = h'.victim) (ha : h.aggressor = h'.aggressor) : h = h' := by
  have hv' := congrArg UInt32.toNat hv
  have ha' := congrArg UInt32.toNat ha
  rw [toNat_victim, toNat_victim] at hv'
  rw [toNat_aggressor, toNat_aggressor] at ha'
  have hraw : h.raw = h'.raw := UInt64.toNat_inj.1 (by omega)
  cases h
  cases h'
  cases hraw
  rfl

theorem halves_packed (victim aggressor : Pid) :
    (⟨(victim.toUInt64 <<< 32) ||| aggressor.toUInt64⟩ : Handoff).victim = victim ∧
      (⟨(victim.toUInt64 <<< 32) ||| aggressor.toUInt64⟩ : Handoff).aggressor = aggressor := by
  have ha := aggressor.toNat_lt
  constructor
  · apply UInt32.toNat_inj.1
    rw [toNat_victim, toNat_packed]
    omega
  · apply UInt32.toNat_inj.1
    rw [toNat_aggressor, toNat_packed]
    omega

theorem ofPair?_eq_some_iff :
    ofPair? victim aggressor = some h ↔
      victim ≠ 0 ∧ aggressor ≠ 0 ∧ h.victim = victim ∧ h.aggressor = aggressor := by
  obtain ⟨hv, ha⟩ := halves_packed victim aggressor
  unfold ofPair?
  split
  · next hzero => simp only [reduceCtorEq, false_iff]; tauto
  · next hreal =>
    rw [not_or] at hreal
    rw [Option.some.injEq]
    constructor
    · rintro rfl
      exact ⟨hreal.1, hreal.2, hv, ha⟩
    · rintro ⟨-, -, hv', ha'⟩
      exact eq_of_halves (hv.trans hv'.symm) (ha.trans ha'.symm)

/-- Two pairs of entities share a handoff only if they are one. -/
theorem ofPair?_inj {v a : Pid} (h₁ : ofPair? victim aggressor = some h) (h₂ : ofPair? v a = some h) :
    victim = v ∧ aggressor = a := by
  obtain ⟨-, -, hv, ha⟩ := ofPair?_eq_some_iff.1 h₁
  obtain ⟨-, -, hv', ha'⟩ := ofPair?_eq_some_iff.1 h₂
  exact ⟨hv.symm.trans hv', ha.symm.trans ha'⟩

end SchedLedger.Handoff
