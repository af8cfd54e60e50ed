/-! Sets of characters given by ascending code point ranges, ends included. -/

namespace SchedLedger.Text

abbrev Ranges := List (Nat × Nat)

/-- A code point belongs to a table when one of its ranges holds it. -/
def Ranges.contains (rs : Ranges) (n : Nat) : Bool :=
  rs.any fun r => r.1 ≤ n && n ≤ r.2

theorem Ranges.contains_iff (rs : Ranges) (n : Nat) :
    rs.contains n = true ↔ ∃ r ∈ rs, r.1 ≤ n ∧ n ≤ r.2 := by
  simp [Ranges.contains]

end SchedLedger.Text
