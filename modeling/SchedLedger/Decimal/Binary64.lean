/-! Floating-point numbers taken apart: a finite one is a natural number times a power of two. -/

namespace SchedLedger.Decimal

def pow2 (k : Nat) : Nat :=
  Nat.pow 2 k

def pow10 (k : Nat) : Nat :=
  Nat.pow 10 k

/-- The number `mantissa * 2 ^ exponent`. For a power of two the gap to the number below may be half
the gap to the number above. -/
structure Dyadic where
  mantissa : Nat
  exponent : Int
  narrowBelow : Bool
deriving DecidableEq, Repr

inductive Shape
  | nan
  | infinite (negative : Bool)
  | finite (negative : Bool) (magnitude : Dyadic)
deriving DecidableEq, Repr

def Shape.ofFloat (x : Float) : Shape :=
  let bits := x.toBits.toNat
  let negative := bits / pow2 63 == 1
  let exponent : Nat := bits / pow2 52 % pow2 11
  let fraction := bits % pow2 52
  if exponent = 2047 then if fraction = 0 then .infinite negative else .nan
  else if exponent = 0 then .finite negative ⟨fraction, -1074, false⟩
  else .finite negative ⟨pow2 52 + fraction, Int.ofNat exponent - 1075, fraction == 0 && 1 < exponent⟩

def Dyadic.numerator (x : Dyadic) : Nat :=
  x.mantissa * pow2 x.exponent.toNat

def Dyadic.denominator (x : Dyadic) : Nat :=
  pow2 (-x.exponent).toNat

theorem Dyadic.denominator_pos (x : Dyadic) : 0 < x.denominator :=
  Nat.two_pow_pos _

/-- The nearest natural number to a fraction; of two equally near ones the even one. -/
def roundDiv (num den : Nat) : Nat :=
  let q := num / den
  let twice := 2 * (num % den)
  if twice < den then q
  else if den < twice then q + 1
  else if q % 2 = 0 then q else q + 1

def digits (n : Nat) : List Char :=
  Nat.toDigits 10 n

def signed (negative : Bool) (text : String) : String :=
  if negative then "-" ++ text else text

end SchedLedger.Decimal
