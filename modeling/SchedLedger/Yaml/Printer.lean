import SchedLedger.Json.Value
import SchedLedger.Yaml.Chars
import SchedLedger.Yaml.Plain

/-! YAML text in block style. A text is written without quotes if it can be told from everything
else, with line breaks as a literal block, and otherwise in quotes. -/

namespace SchedLedger.Yaml

open Json (Value)

def withNeighbours (before : Option Char) : List Char → List (Option Char × Char × Option Char)
  | [] => []
  | c :: cs => (before, c, cs.head?) :: withNeighbours (some c) cs

def leadingIndicators : List Char :=
  ['#', ',', '[', ']', '\x7b', '\x7d', '&', '*', '!', '|', '>', '\'', '"', '%', '@', '\x60']

def isIndicator (at_ : Option Char × Char × Option Char) : Bool :=
  match at_ with
  | (none, c, next) =>
    leadingIndicators.contains c || ((c == '?' || c == ':' || c == '-') && endsWord next)
  | (some p, c, next) => (c == ':' && endsWord next) || (c == '#' && endsWord (some p))

structure Obstacles where
  unprintable : Bool
  lineBreaks : Bool
  indicators : Bool
  outerBlank : Bool
  trailingSpace : Bool
  spaceAfterBreak : Bool
  spaceBeforeBreak : Bool

def obstacles (cs : List Char) : Obstacles :=
  let all := withNeighbours none cs
  let blank (c : Option Char) : Bool := match c with
    | some c => c == ' ' || isBreak c
    | none => false
  { unprintable := cs.any fun c => !isPrintable c
    lineBreaks := cs.any isBreak
    indicators := all.any isIndicator || ['-', '-', '-'].isPrefixOf cs || ['.', '.', '.'].isPrefixOf cs
    outerBlank := blank cs.head? || blank cs.getLast?
    trailingSpace := cs.getLast? == some ' '
    spaceAfterBreak := all.any fun x => x.2.1 == ' ' && (x.1.map isBreak).getD false
    spaceBeforeBreak := all.any fun x => isBreak x.2.1 && x.1 == some ' ' }

inductive Style
  | plain
  | single
  | double
  | literal
deriving DecidableEq

namespace Obstacles

def allowPlain (o : Obstacles) : Bool :=
  !(o.unprintable || o.lineBreaks || o.indicators || o.outerBlank)

def allowSingle (o : Obstacles) : Bool :=
  !(o.unprintable || o.spaceAfterBreak || o.spaceBeforeBreak)

def allowLiteral (o : Obstacles) : Bool :=
  !(o.unprintable || o.trailingSpace || o.spaceBeforeBreak)

end Obstacles

def styleOf (s : String) : Style :=
  let o := obstacles s.toList
  if s.toList.contains '\n' then (if o.allowLiteral then .literal else .double)
  else if o.allowPlain && !isTyped s then .plain
  else if o.allowSingle then .single
  else .double

def upperHex (width n : Nat) : List Char :=
  ((Nat.toDigits 16 n).map Char.toUpper).leftpad width '0'

def doubleChar (c : Char) : List Char :=
  if isPrintable c && !isBreak c && c != '"' && c != '\\' then [c]
  else '\\' :: match c with
    | '\x00' => ['0']
    | '\x07' => ['a']
    | '\x08' => ['b']
    | '\t' => ['t']
    | '\n' => ['n']
    | '\x0B' => ['v']
    | '\x0C' => ['f']
    | '\r' => ['r']
    | '\x1B' => ['e']
    | '"' => ['"']
    | '\\' => ['\\']
    | '\u0085' => ['N']
    | '\u2028' => ['L']
    | '\u2029' => ['P']
    | c =>
      if c.toNat < 0x100 then 'x' :: upperHex 2 c.toNat
      else if c.toNat < 0x10000 then 'u' :: upperHex 4 c.toNat
      else 'U' :: upperHex 8 c.toNat

/-- The text written so far, backwards. -/
abbrev Sheet := List Char

namespace Sheet

def add (s : Sheet) (cs : List Char) : Sheet :=
  cs.reverse ++ s

def pad (s : Sheet) (column : Nat) : Sheet :=
  s.add (List.replicate column ' ')

/-- Go to a column of a new line, unless the text ends in a line break already. -/
def newLine (s : Sheet) (column : Nat) : Sheet :=
  match s with
  | c :: _ => if isBreak c then s.pad column else Sheet.pad ('\n' :: s) column
  | [] => s.pad column

/-- Text that may break lines; every line but the first starts at a column, unless it is empty. -/
def addLines (column : Nat) (atBreak : Bool) (s : Sheet) : List Char → Sheet
  | [] => s
  | c :: cs =>
    if isBreak c then addLines column true (c :: s) cs
    else addLines column false (c :: (if atBreak then s.pad column else s)) cs

/-- The marks of a literal block: where its lines start if the first one starts blank, and what
becomes of the breaks at its end. -/
def literalMarks (cs : List Char) : List Char :=
  let start := match cs with
    | c :: _ => if c == ' ' || isBreak c then ['2'] else []
    | [] => []
  let finish := match cs.reverse with
    | c :: d :: _ => if !isBreak c then ['-'] else if isBreak d then ['+'] else []
    | [c] => if isBreak c then ['+'] else ['-']
    | [] => ['-']
  start ++ finish

def addText (s : Sheet) (column : Nat) (text : String) : Sheet :=
  let cs := text.toList
  match styleOf text with
  | .plain => s.add cs
  | .single =>
    let doubled := cs.flatMap fun c => if c == '\'' then ['\'', '\''] else [c]
    let body := addLines column false ('\'' :: s) doubled
    '\'' :: (if (cs.getLast?.map isBreak).getD false then body.pad column else body)
  | .double => s.add (['"'] ++ cs.flatMap doubleChar ++ ['"'])
  | .literal => addLines column true (s.add ('|' :: literalMarks cs ++ ['\n'])) cs

end Sheet

def floatStyle : Decimal.FloatStyle :=
  ⟨-5, 15, true, false⟩

def floatText (x : Float) : String :=
  match Decimal.Shape.ofFloat x with
  | .nan => ".nan"
  | .infinite negative => Decimal.signed negative ".inf"
  | .finite negative m => Decimal.signed negative (String.ofList (Decimal.layout floatStyle m))

def inline? : Value → Option String
  | .null => some "null"
  | .bool b => some (if b then "true" else "false")
  | .integer n => some (toString n)
  | .real x => some (floatText x)
  | .list [] => some "[]"
  | .object [] => some "\x7b\x7d"
  | _ => none

mutual

def memberValue (column : Nat) (s : Sheet) : Value → Sheet
  | .list (v :: vs) => elements column s (v :: vs)
  | .object (m :: ms) => members (column + 2) s (m :: ms)
  | .text t => Sheet.addText (s.add [' ']) (column + 2) t
  | v => s.add (' ' :: ((inline? v).getD "").toList)

def elements (column : Nat) (s : Sheet) : List Value → Sheet
  | [] => s
  | v :: vs => elements column (element (column + 2) ((s.newLine column).add ['-', ' ']) v) vs

def element (column : Nat) (s : Sheet) : Value → Sheet
  | .object ((name, v) :: ms) =>
    members column (memberValue column (s.add (name.toList ++ [':'])) v) ms
  | .list (v :: vs) => elements column (element (column + 2) (s.add ['-', ' ']) v) vs
  | .text t => s.addText column t
  | v => s.add ((inline? v).getD "").toList

def members (column : Nat) (s : Sheet) : List (String × Value) → Sheet
  | [] => s
  | (name, v) :: ms =>
    members column (memberValue column ((s.newLine column).add (name.toList ++ [':'])) v) ms

end

def render (v : Value) : String :=
  let body := match v with
    | .list (v :: vs) => elements 0 [] (v :: vs)
    | .object (m :: ms) => members 0 [] (m :: ms)
    | v => element 0 [] v
  String.ofList (Sheet.newLine body 0).reverse

end SchedLedger.Yaml
