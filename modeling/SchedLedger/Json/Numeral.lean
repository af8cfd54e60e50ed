import SchedLedger.Json.Value
import SchedLedger.Text.Natural

/-! Numbers in JSON text. The digits are collected into a word as long as they fit; what is left of
the whole part only raises the power of ten, and what is left of the fraction is not looked at. -/

namespace SchedLedger.Json

structure Numeral where
  negative : Bool
  whole : List Char
  fraction : Option (List Char)
  exponent : Option Int
deriving DecidableEq

def isDigit (c : Char) : Bool :=
  '0' ≤ c && c ≤ '9'

def digitOf (c : Char) : Nat :=
  c.toNat - 0x30

def spanDigits (cs : List Char) : List Char × List Char :=
  (cs.takeWhile isDigit, cs.dropWhile isDigit)

def someDigits (cs : List Char) : Option (List Char × List Char) :=
  match spanDigits cs with
  | ([], _) => none
  | found => some found

def wholePart (cs : List Char) : Option (List Char × List Char) :=
  match spanDigits cs with
  | ([], _) => none
  | ('0' :: _ :: _, _) => none
  | found => some found

def fractionPart : List Char → Option (Option (List Char) × List Char)
  | '.' :: cs => (someDigits cs).map fun found => (some found.1, found.2)
  | cs => some (none, cs)

def exponentDigits : List Char → Option (Int × List Char)
  | '-' :: cs => (someDigits cs).map fun found => (-(Text.decimalValue found.1 : Int), found.2)
  | '+' :: cs => (someDigits cs).map fun found => ((Text.decimalValue found.1 : Int), found.2)
  | cs => (someDigits cs).map fun found => ((Text.decimalValue found.1 : Int), found.2)

def exponentPart : List Char → Option (Option Int × List Char)
  | 'e' :: cs | 'E' :: cs => (exponentDigits cs).map fun found => (some found.1, found.2)
  | cs => some (none, cs)

def numeral (cs : List Char) : Option (Numeral × List Char) := do
  let negative := cs.head? == some '-'
  let (whole, cs) ← wholePart (if negative then cs.tail else cs)
  let (fraction, cs) ← fractionPart cs
  let (exponent, cs) ← exponentPart cs
  return (⟨negative, whole, fraction, exponent⟩, cs)

/-- Append digits to a number as long as it stays a word; the digits that did not fit. -/
def absorb (n : Nat) : List Char → Nat × List Char
  | [] => (n, [])
  | d :: ds =>
    if n * 10 + digitOf d < UInt64.size then absorb (n * 10 + digitOf d) ds else (n, d :: ds)

def powerOfTen (e : Nat) : Float :=
  Float.ofScientific 1 false e

def scale (n : Nat) (e : Int) : Option Float :=
  let x := (UInt64.ofNat n).toFloat
  if n = 0 then some x
  else if 308 < e then none
  else if 0 ≤ e then
    let y := x * powerOfTen e.toNat
    if y.isInf then none else some y
  else if -308 ≤ e then some (x / powerOfTen (-e).toNat)
  else if -616 ≤ e then some (x / powerOfTen 308 / powerOfTen (-e - 308).toNat)
  else some 0.0

namespace Numeral

def float? (n : Numeral) : Option Float :=
  let whole := absorb 0 n.whole
  let fraction := n.fraction.getD []
  let all := absorb whole.1 fraction
  let taken := fraction.length - all.2.length
  (scale all.1 (n.exponent.getD 0 + whole.2.length - taken)).map fun x =>
    if n.negative then -x else x

/-- The number as an integer, if it is spelled as one and fits. Zero with a minus sign is none. -/
def integer? (n : Numeral) : Option Int :=
  match n.fraction, n.exponent with
  | none, none =>
    let v := Text.decimalValue n.whole
    if n.negative then (if 0 < v ∧ v ≤ UInt64.size / 2 then some (-(v : Int)) else none)
    else if v < UInt64.size then some v
    else none
  | _, _ => none

def value? (n : Numeral) : Option Value :=
  match n.integer? with
  | some v => some (.integer v)
  | none => n.float?.map .real

end Numeral
end SchedLedger.Json
