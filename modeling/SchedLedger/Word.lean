/-! Products of words. -/

namespace SchedLedger

/-- The product of two words, if it fits into one. -/
def product? (a b : UInt64) : Option UInt64 :=
  if a.toNat * b.toNat < UInt64.size then some (a * b) else none

theorem product?_eq_some_iff {a b c : UInt64} :
    product? a b = some c ↔ a.toNat * b.toNat < UInt64.size ∧ c.toNat = a.toNat * b.toNat := by
  unfold product?
  split
  · next hfits =>
    rw [Option.some.injEq, ← UInt64.toNat_inj, UInt64.toNat_mul, Nat.mod_eq_of_lt hfits]
    exact ⟨fun h => ⟨hfits, h.symm⟩, fun h => h.2.symm⟩
  · next hlarge => exact ⟨fun h => (nomatch h), fun h => absurd h.1 hlarge⟩

theorem product?_eq_none_iff {a b : UInt64} : product? a b = none ↔ UInt64.size ≤ a.toNat * b.toNat := by
  unfold product?
  split
  · next hfits => exact ⟨fun h => (nomatch h), fun h => absurd hfits (Nat.not_lt.2 h)⟩
  · next hlarge => exact ⟨fun _ => Nat.not_lt.1 hlarge, fun _ => rfl⟩

end SchedLedger
