import SchedLedger.Text.PrintTable
import SchedLedger.Text.Padded

/-! Texts in double quotes, with everything that a reader could mistake or not see spelled out. -/

namespace SchedLedger.Text

def hexDigit (n : Nat) : Char :=
  if n < 10 then Char.ofNat (0x30 + n) else Char.ofNat (0x57 + n)

def hexDigits (n : Nat) : List Char :=
  (Nat.toDigits 16 n).map fun c => if c.isUpper then c.toLower else c

def hexFixed : (width : Nat) → (n : Nat) → List Char
  | 0, _ => []
  | width + 1, n => hexFixed width (n / 16) ++ [hexDigit (n % 16)]

def codePoint (c : Char) : List Char :=
  ['\\', 'u', '\x7b'] ++ hexDigits c.toNat ++ ['\x7d']

def printable (c : Char) : Bool :=
  !unprintableRanges.contains c.toNat

def extending (c : Char) : Bool :=
  extendingRanges.contains c.toNat

def quotedChar (c : Char) : List Char :=
  if c == '\x00' then ['\\', '0']
  else if c == '\t' then ['\\', 't']
  else if c == '\r' then ['\\', 'r']
  else if c == '\n' then ['\\', 'n']
  else if c == '\\' then ['\\', '\\']
  else if c == '"' then ['\\', '"']
  else if extending c || !printable c then codePoint c
  else [c]

def quoted (s : String) : String :=
  String.ofList (['"'] ++ s.toList.flatMap quotedChar ++ ['"'])

def byteList (bs : Bytes) : String :=
  "[" ++ String.intercalate ", " (bs.map fun b => toString b.toNat) ++ "]"

end SchedLedger.Text

namespace SchedLedger.Padded

variable {n : Nat}

/-- The content in quotes, or its bytes if it is no text. -/
def inspect (b : Padded n) : String :=
  match Text.Utf8.decode? b.content with
  | some s => Text.quoted s
  | none => Text.byteList b.content

end SchedLedger.Padded
