import SchedLedger.Decimal.Binary64
import SchedLedger.Text.Natural

/-! What a plain scalar of YAML stands for: null, a truth value, a number, or else its own text. -/

namespace SchedLedger.Yaml

open SchedLedger.Decimal (pow2 pow10)

def isNull (s : String) : Bool :=
  s = "null" || s = "Null" || s = "NULL" || s = "~"

def bool? (s : String) : Option Bool :=
  if s = "true" ∨ s = "True" ∨ s = "TRUE" then some true
  else if s = "false" ∨ s = "False" ∨ s = "FALSE" then some false
  else none

def dropSign (signs : List Char) : List Char → List Char
  | c :: cs => if c ∈ signs then cs else c :: cs
  | [] => []

def startsWithSign (cs : List Char) : Bool :=
  match cs with
  | c :: _ => c == '+' || c == '-'
  | [] => false

def isDecimalDigit (c : Char) : Bool :=
  '0' ≤ c && c ≤ '9'

/-- Digits that start with a needless zero are a text, not a number. -/
def isZeroPadded (cs : List Char) : Bool :=
  match dropSign ['+', '-'] cs with
  | '0' :: d :: ds => (d :: ds).all isDecimalDigit
  | _ => false

def base? : List Char → Option (Nat × List Char)
  | '0' :: 'x' :: cs => some (16, cs)
  | '0' :: 'o' :: cs => some (8, cs)
  | '0' :: 'b' :: cs => some (2, cs)
  | _ => none

def unsigned? (limit : Nat) (cs : List Char) : Option Nat :=
  let body := dropSign ['+'] cs
  let based := match base? body with
    | some (base, digits) =>
      if startsWithSign digits then none else (Text.readNumber base limit digits).toOption
    | none => none
  match based with
  | some n => some n
  | none =>
    if startsWithSign body || isZeroPadded cs then none else (Text.readNumber 10 limit body).toOption

def negative? (limit : Nat) : List Char → Option Nat
  | '-' :: cs =>
    let digits? (base : Nat) (ds : List Char) : Option Nat :=
      if startsWithSign ds then none else (Text.readNumber base limit ds).toOption
    let based := match base? cs with
      | some (base, digits) => digits? base digits
      | none => none
    match based with
    | some n => some n
    | none => if isZeroPadded cs then none else digits? 10 cs
  | _ => none

structure Decimal where
  digits : List Char
  exponent : Int

def exponent? : List Char → Option Int
  | [] => some 0
  | e :: cs =>
    if e = 'e' ∨ e = 'E' then
      let ds := dropSign ['+', '-'] cs
      if ds.isEmpty || !ds.all isDecimalDigit then none
      else
        some (if cs.head? = some '-' then -(Text.decimalValue ds : Int) else Text.decimalValue ds)
    else none

/-- Digits with at most one point among or around them, and perhaps a power of ten. -/
def decimal? (cs : List Char) : Option Decimal := do
  let cs := dropSign ['-'] cs
  let whole := cs.takeWhile isDecimalDigit
  let rest := cs.dropWhile isDecimalDigit
  let (fraction, rest) := match rest with
    | '.' :: rest => (rest.takeWhile isDecimalDigit, rest.dropWhile isDecimalDigit)
    | rest => ([], rest)
  if whole.isEmpty && fraction.isEmpty then none
  let e ← exponent? rest
  return ⟨whole ++ fraction, e - (fraction.length : Int)⟩

/-- Whether the number stays below the point from which floats become infinite. -/
def Decimal.isFinite (d : Decimal) : Bool :=
  let n := Text.decimalValue d.digits
  let lead := ((Nat.toDigits 10 n).length : Int) + d.exponent
  if n = 0 || lead < 300 then true
  else if 310 < lead then false
  else n * pow10 d.exponent.toNat < (pow2 1024 - pow2 970) * pow10 (-d.exponent).toNat

def isInfinityOrNone (s : String) : Bool :=
  [".inf", ".Inf", ".INF", "+.inf", "+.Inf", "+.INF", "-.inf", "-.Inf", "-.INF",
   ".nan", ".NaN", ".NAN"].contains s

def isFloat (s : String) : Bool :=
  let body := dropSign ['+'] s.toList
  isInfinityOrNone s ||
    !(s.toList.head? == some '+' && startsWithSign body) &&
      (match decimal? body with
       | some d => d.isFinite
       | none => false)

def isTyped (s : String) : Bool :=
  s = "" || isNull s || (bool? s).isSome || isZeroPadded s.toList ||
    (unsigned? (pow2 128 - 1) s.toList).isSome || (negative? (pow2 127) s.toList).isSome || isFloat s

end SchedLedger.Yaml
