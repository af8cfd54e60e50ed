/-! The characters of YAML, and where they stand in a text. -/

namespace SchedLedger.Yaml

def isBreak (c : Char) : Bool :=
  c == '\n' || c == '\r' || c == '\u0085' || c == '\u2028' || c == '\u2029'

def isBlank (c : Char) : Bool :=
  c == ' ' || c == '\t'

def endsWord : Option Char → Bool
  | none => true
  | some c => isBlank c || c == '\x00' || isBreak c

def isPrintable (c : Char) : Bool :=
  let n := c.toNat
  n == 0x0A || (0x20 ≤ n && n ≤ 0x7E) || (0xA0 ≤ n && n ≤ 0xD7FF) ||
    (0xE000 ≤ n && n ≤ 0xFFFD && n != 0xFEFF) || 0x10000 ≤ n

def isAllowed (c : Char) : Bool :=
  isPrintable c || c == '\t' || c == '\r' || c == '\u0085' || c == '\uFEFF'

def isNameChar (c : Char) : Bool :=
  ('0' ≤ c && c ≤ '9') || ('A' ≤ c && c ≤ 'Z') || ('a' ≤ c && c ≤ 'z') || c == '_' || c == '-'

def normalBreaks : List Char → List Char
  | [] => []
  | '\r' :: '\n' :: cs => '\n' :: normalBreaks cs
  | c :: cs => (if c == '\r' || c == '\u0085' then '\n' else c) :: normalBreaks cs

structure Place where
  char : Char
  line : Nat
  column : Nat
deriving DecidableEq

/-- The places of a text from one on. The end of the text is a place too, with a NUL. -/
def placesFrom (line column : Nat) : List Char → List Place
  | [] => [⟨'\x00', line, column⟩]
  | c :: cs =>
    ⟨c, line, column⟩ ::
      if isBreak c then placesFrom (line + 1) 0 cs else placesFrom line (column + 1) cs

/-- The places of a text, if it holds allowed characters only. A byte order mark at its start takes a
column and is left out. -/
def places? (cs : List Char) : Option (List Place) :=
  if cs.all isAllowed then
    let ps := placesFrom 0 0 (normalBreaks cs)
    some (if cs.head? == some '\uFEFF' then ps.tail else ps)
  else none

def ahead (n : Nat) (ps : List Place) : Option Char :=
  ps[n]?.map Place.char

/-- Three equal characters at the start of a line that are a word of their own. -/
def isMarker (c : Char) (ps : List Place) : Bool :=
  match ps with
  | p :: _ =>
    p.column == 0 && p.char == c && ahead 1 ps == some c && ahead 2 ps == some c && endsWord (ahead 3 ps)
  | [] => false

def isDocumentMarker (ps : List Place) : Bool :=
  isMarker '-' ps || isMarker '.' ps

def charsOf (ps : List Place) : List Char :=
  ps.map Place.char

def spanChars (p : Char → Bool) (ps : List Place) : List Char × List Place :=
  (charsOf (ps.takeWhile fun x => p x.char), ps.dropWhile fun x => p x.char)

def skipBlanks (ps : List Place) : List Place :=
  ps.dropWhile fun x => isBlank x.char

def lineEnd? (ps : List Place) : Option (List Place) :=
  let ends (x : Place) : Bool := x.char == '\x00' || isBreak x.char
  let after := match skipBlanks ps with
    | p :: rest => if p.char == '#' then rest.dropWhile fun x => !ends x else p :: rest
    | [] => []
  match after with
  | p :: rest => if isBreak p.char then some rest else if p.char == '\x00' then some (p :: rest) else none
  | [] => some []

end SchedLedger.Yaml
