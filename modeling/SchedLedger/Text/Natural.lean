/-! Unsigned decimal numbers of limited size, read from text. -/

namespace SchedLedger.Text

inductive NumberError
  | empty
  | invalidDigit
  | tooLarge
deriving DecidableEq, Repr

def NumberError.message : NumberError → String
  | .empty => "cannot parse integer from empty string"
  | .invalidDigit => "invalid digit found in string"
  | .tooLarge => "number too large to fit in target type"

def digitValue? (base : Nat) (c : Char) : Option Nat :=
  let v :=
    if '0' ≤ c ∧ c ≤ '9' then some (c.toNat - 0x30)
    else if 'a' ≤ c ∧ c ≤ 'z' then some (c.toNat - 0x61 + 10)
    else if 'A' ≤ c ∧ c ≤ 'Z' then some (c.toNat - 0x41 + 10)
    else none
  v.filter (· < base)

def decimalValue (ds : List Char) : Nat :=
  ds.foldl (fun n d => n * 10 + (d.toNat - 0x30)) 0

/-- Read digits on top of `value`; the first character that is no digit or takes the value past
`limit` decides. -/
def readDigits (base limit : Nat) : (value : Nat) → List Char → Except NumberError Nat
  | value, [] => .ok value
  | value, c :: cs =>
    match digitValue? base c with
    | none => .error .invalidDigit
    | some d =>
      if value * base + d ≤ limit then readDigits base limit (value * base + d) cs
      else .error .tooLarge

/-- A number of at most `limit`; one plus sign may stand before its digits. -/
def readNumber (base limit : Nat) : List Char → Except NumberError Nat
  | [] => .error .empty
  | ['+'] => .error .invalidDigit
  | '+' :: cs => readDigits base limit 0 cs
  | cs => readDigits base limit 0 cs

def readWord (s : String) : Except NumberError UInt64 :=
  (readNumber 10 (UInt64.size - 1) s.toList).map fun n => UInt64.ofNat n

end SchedLedger.Text
