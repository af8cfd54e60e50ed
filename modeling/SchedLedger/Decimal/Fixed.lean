import SchedLedger.Decimal.Binary64

/-! Numbers with a set count of decimal places. The exact value is rounded, a tie to the even digit. -/

namespace SchedLedger.Decimal

/-- `n` units of the last of `places` places. -/
def placed (places n : Nat) : List Char :=
  let ds := digits n
  let padded := List.replicate (places + 1 - ds.length) '0' ++ ds
  if places = 0 then padded
  else padded.take (padded.length - places) ++ '.' :: padded.drop (padded.length - places)

def fixed (places : Nat) (x : Float) : String :=
  match Shape.ofFloat x with
  | .nan => "NaN"
  | .infinite negative => signed negative "inf"
  | .finite negative m =>
    signed negative (String.ofList (placed places (roundDiv (m.numerator * pow10 places) m.denominator)))

end SchedLedger.Decimal
