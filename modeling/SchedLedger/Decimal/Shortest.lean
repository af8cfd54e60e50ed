import SchedLedger.Decimal.Binary64

/-! The fewest decimal digits that identify a float. Every float owns an interval of real numbers
that are rounded to it; the number written is the nearest one to the float on the coarsest decimal
grid that meets this interval. -/

namespace SchedLedger.Decimal

structure Scaled where
  digits : Nat
  exponent : Int
deriving DecidableEq, Repr

def magnitude (num den : Nat) : Int :=
  if den ≤ num then (digits (num / den)).length
  else 1 - ((digits ((den - 1) / num)).length : Int)

/-- A float and its interval on the grid of the multiples of `10 ^ exponent`: a multiple `c` stands
for `c * step`, next to the float at `4 * mantissa * unit` and its ends a quarter or a half away. -/
structure Grid where
  unit : Nat
  step : Nat

def Grid.of (x : Dyadic) (exponent : Int) : Grid where
  unit := pow2 x.exponent.toNat * pow10 (-exponent).toNat
  step := 4 * pow2 (-x.exponent).toNat * pow10 exponent.toNat

/-- Whether the multiple `c` is rounded to `x`. The ends belong to an even mantissa. -/
def Grid.owns (g : Grid) (x : Dyadic) (c : Nat) : Bool :=
  let low := (4 * x.mantissa - (if x.narrowBelow then 1 else 2)) * g.unit
  let high := (4 * x.mantissa + 2) * g.unit
  let here := c * g.step
  if x.mantissa % 2 = 0 then low ≤ here && here ≤ high else low < here && here < high

/-- The multiple next to `x` that is rounded to it, the nearer one of two, and the even one if both
are equally near. -/
def Grid.pick? (g : Grid) (x : Dyadic) : Option Nat :=
  let value := 4 * x.mantissa * g.unit
  let below := value / g.step
  match g.owns x below, g.owns x (below + 1) with
  | false, false => none
  | true, false => some below
  | false, true => some (below + 1)
  | true, true => some (roundDiv value g.step)

def searchDigits (x : Dyadic) (k : Int) : (more tried : Nat) → Option Scaled
  | 0, _ => none
  | more + 1, tried =>
    match (Grid.of x (k - tried)).pick? x with
    | some c => some ⟨c, k - tried⟩
    | none => searchDigits x k more (tried + 1)

def Scaled.strip : (fuel : Nat) → Scaled → Scaled
  | 0, d => d
  | fuel + 1, d =>
    if d.digits ≠ 0 ∧ d.digits % 10 = 0 then Scaled.strip fuel ⟨d.digits / 10, d.exponent + 1⟩ else d

/-- The shortest decimal of a positive number. Seventeen digits always suffice. -/
def shortest (x : Dyadic) : Scaled :=
  let k := magnitude x.numerator x.denominator
  let found := searchDigits x k 17 1
  Scaled.strip 18 (found.getD ⟨4 * x.mantissa * (Grid.of x (k - 17)).unit / (Grid.of x (k - 17)).step, k - 17⟩)

/-- How a format writes shortest decimals: up to which powers of ten without an exponent, and
whether whole numbers show a point and positive exponents a plus. -/
structure FloatStyle where
  leastPositional : Int
  greatestPositional : Int
  wholePoint : Bool
  exponentPlus : Bool

def zeros (n : Int) : List Char :=
  List.replicate n.toNat '0'

def positional (style : FloatStyle) (ds : List Char) (lead : Int) : List Char :=
  if lead < 0 then '0' :: '.' :: zeros (-lead - 1) ++ ds
  else if (ds.length : Int) ≤ lead + 1 then
    ds ++ zeros (lead + 1 - ds.length) ++ (if style.wholePoint then ['.', '0'] else [])
  else ds.take (lead + 1).toNat ++ '.' :: ds.drop (lead + 1).toNat

def exponential (style : FloatStyle) (ds : List Char) (lead : Int) : List Char :=
  let sign := if lead < 0 then ['-'] else if style.exponentPlus then ['+'] else []
  ds.take 1 ++ (if ds.length = 1 then [] else '.' :: ds.drop 1) ++
    'e' :: sign ++ digits lead.natAbs

def layout (style : FloatStyle) (x : Dyadic) : List Char :=
  if x.mantissa = 0 then positional style ['0'] 0
  else
    let d := shortest x
    let ds := digits d.digits
    let lead := d.exponent + ds.length - 1
    if style.leastPositional ≤ lead ∧ lead ≤ style.greatestPositional then positional style ds lead
    else exponential style ds lead

end SchedLedger.Decimal
