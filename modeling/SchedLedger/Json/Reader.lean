import SchedLedger.Json.Numeral

/-! Reading JSON text. A reader takes the value at the start of a text and returns it with the rest,
or nothing if no value is well formed there. Containers may be nested up to a given depth. -/

namespace SchedLedger.Json

def isBlank (c : Char) : Bool :=
  c == ' ' || c == '\t' || c == '\n' || c == '\r'

def skipBlank (cs : List Char) : List Char :=
  cs.dropWhile isBlank

def literal (word : String) (v : Value) (cs : List Char) : Option (Value × List Char) :=
  if word.toList.isPrefixOf cs then some (v, cs.drop word.length) else none

def hexValue? (c : Char) : Option Nat :=
  if '0' ≤ c ∧ c ≤ '9' then some (c.toNat - 0x30)
  else if 'a' ≤ c ∧ c ≤ 'f' then some (c.toNat - 0x61 + 10)
  else if 'A' ≤ c ∧ c ≤ 'F' then some (c.toNat - 0x41 + 10)
  else none

def hexUnit? (a b c d : Char) : Option Nat := do
  return (((← hexValue? a) * 16 + (← hexValue? b)) * 16 + (← hexValue? c)) * 16 + (← hexValue? d)

def escaped? (c : Char) : Option Char :=
  match c with
  | '"' => some '"'
  | '\\' => some '\\'
  | '/' => some '/'
  | 'b' => some '\x08'
  | 'f' => some '\x0C'
  | 'n' => some '\n'
  | 'r' => some '\r'
  | 't' => some '\t'
  | _ => none

/-- A part of a string: a character, or a sixteen-bit unit given by number. -/
inductive Piece
  | plain (c : Char)
  | unit (n : Nat)
deriving DecidableEq

def pieces : List Char → Option (List Piece × List Char)
  | [] => none
  | '"' :: cs => some ([], cs)
  | '\\' :: 'u' :: a :: b :: c :: d :: cs => do
    let n ← hexUnit? a b c d
    let (ps, rest) ← pieces cs
    return (.unit n :: ps, rest)
  | '\\' :: c :: cs => do
    let e ← escaped? c
    let (ps, rest) ← pieces cs
    return (.plain e :: ps, rest)
  | c :: cs => do
    if c < ' ' then none
    let (ps, rest) ← pieces cs
    return (.plain c :: ps, rest)

def isHighUnit (n : Nat) : Bool :=
  0xD800 ≤ n && n < 0xDC00

def isLowUnit (n : Nat) : Bool :=
  0xDC00 ≤ n && n < 0xE000

/-- The characters that pieces spell. A high unit needs a low one after it, and a low unit a high
one before it. -/
def joinPieces : List Piece → Option (List Char)
  | [] => some []
  | .plain c :: ps => (joinPieces ps).map (c :: ·)
  | .unit n :: .unit m :: ps =>
    if isHighUnit n then
      if isLowUnit m then
        (joinPieces ps).map (Char.ofNat (0x10000 + (n - 0xD800) * 0x400 + (m - 0xDC00)) :: ·)
      else none
    else if isLowUnit n then none
    else (joinPieces (.unit m :: ps)).map (Char.ofNat n :: ·)
  | .unit n :: ps =>
    if isHighUnit n || isLowUnit n then none else (joinPieces ps).map (Char.ofNat n :: ·)

def stringTail (cs : List Char) : Option (String × List Char) := do
  let (ps, rest) ← pieces cs
  return (String.ofList (← joinPieces ps), rest)

def scalar : List Char → Option (Value × List Char)
  | '"' :: cs => (stringTail cs).map fun found => (.text found.1, found.2)
  | 'n' :: cs => literal "null" .null ('n' :: cs)
  | 't' :: cs => literal "true" (.bool true) ('t' :: cs)
  | 'f' :: cs => literal "false" (.bool false) ('f' :: cs)
  | cs => do
    let (n, rest) ← numeral cs
    return (← n.value?, rest)

/-- Items with commas between them, up to a closing bracket; `fuel` bounds their number. -/
def itemsUpTo {α : Type} (close : Char) (item : List Char → Option (α × List Char)) :
    (fuel : Nat) → List Char → Option (List α × List Char)
  | 0, _ => none
  | fuel + 1, cs => do
    let (x, rest) ← item cs
    match skipBlank rest with
    | ',' :: rest => do
      let (xs, rest) ← itemsUpTo close item fuel rest
      return (x :: xs, rest)
    | c :: rest => if c = close then some ([x], rest) else none
    | [] => none

def containerTail {α : Type} (close : Char) (item : List Char → Option (α × List Char)) (cs : List Char) :
    Option (List α × List Char) :=
  match skipBlank cs with
  | [] => none
  | c :: rest => if c = close then some ([], rest) else itemsUpTo close item (rest.length + 1) (c :: rest)

def memberName (cs : List Char) : Option (String × List Char) :=
  match skipBlank cs with
  | '"' :: cs => stringTail cs
  | _ => none

def memberColon (cs : List Char) : Option (List Char) :=
  match skipBlank cs with
  | ':' :: cs => some cs
  | _ => none

def member {α : Type} (item : List Char → Option (α × List Char)) (cs : List Char) :
    Option ((String × α) × List Char) := do
  let (name, rest) ← memberName cs
  let (x, rest) ← item (← memberColon rest)
  return ((name, x), rest)

/-- A value with at most `depth` containers around any of its parts, itself included. -/
def value : (depth : Nat) → List Char → Option (Value × List Char)
  | 0, cs =>
    match skipBlank cs with
    | '[' :: _ | '\x7b' :: _ => none
    | cs => scalar cs
  | depth + 1, cs =>
    match skipBlank cs with
    | '[' :: cs => (containerTail ']' (value depth) cs).map fun found => (.list found.1, found.2)
    | '\x7b' :: cs =>
      (containerTail '\x7d' (member (value depth)) cs).map fun found => (.object found.1, found.2)
    | cs => scalar cs

def depthLimit : Nat := 127

end SchedLedger.Json
