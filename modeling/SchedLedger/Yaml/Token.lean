import SchedLedger.Text.Utf8
import SchedLedger.Yaml.Scalar

/-! The tokens of a YAML text. Structure that is only shown by indentation gets tokens of its own. A
token that could turn out to be the key of a mapping is remembered until its colon is met; the tokens
that make it a key are then inserted before it. -/

namespace SchedLedger.Yaml

inductive ScalarKind
  | plain
  | literal
  | other
deriving DecidableEq, Repr

inductive Token
  | version (major minor : Nat)
  | tagDirective (handle start : String)
  | documentStart
  | documentEnd
  | blockSequence
  | blockMapping
  | blockEnd
  | flowSequence
  | flowSequenceEnd
  | flowMapping
  | flowMappingEnd
  | entry
  | flowEntry
  | key
  | value
  | alias (name : String)
  | anchor (name : String)
  | tag (handle rest : String)
  | scalar (kind : ScalarKind) (text : String)
deriving DecidableEq, Repr

/-- A place where a key may start, with the number of tokens before it. A key is required where the
indentation shows that nothing else can stand. -/
structure Candidate where
  required : Bool
  number : Nat
  line : Nat
  column : Nat

/-- A key ends on its own line, within 1024 characters. -/
def Candidate.isStale (c : Candidate) (p : Place) : Bool :=
  c.line < p.line || c.column + 1024 < p.column

/-- The state between two tokens. Tokens stand backwards; `outer` holds the indentations around the
current one, and `candidates` one possible key for each level of brackets, innermost first. -/
structure Scan where
  rest : List Place
  tokens : List Token
  indent : Int
  outer : List Int
  candidates : List (Option Candidate)
  keyAllowed : Bool

namespace Scan

def start (ps : List Place) : Scan :=
  ⟨ps, [], -1, [], [none], true⟩

def inFlow (s : Scan) : Bool :=
  1 < s.candidates.length

def here (s : Scan) : Place :=
  s.rest.headD ⟨'\x00', 0, 0⟩

def add (s : Scan) (t : Token) : Scan :=
  { s with tokens := t :: s.tokens }

/-- Insert a token after the first `number` ones. -/
def insert (s : Scan) (number : Nat) (t : Token) : Scan :=
  let later := s.tokens.length - number
  { s with tokens := s.tokens.take later ++ t :: s.tokens.drop later }

def dropCandidate (s : Scan) : Option Scan :=
  match s.candidates with
  | some c :: rest => if c.required then none else some { s with candidates := none :: rest }
  | _ => some s

def saveCandidate (s : Scan) : Option Scan := do
  if !s.keyAllowed then return s
  let p := s.here
  let required := !s.inFlow && s.indent == (p.column : Int)
  let s ← s.dropCandidate
  return { s with candidates := some ⟨required, s.tokens.length, p.line, p.column⟩ :: s.candidates.tail }

def dropStale (s : Scan) : Option Scan := do
  let candidates ← s.candidates.mapM fun c => match c with
    | some c => if c.isStale s.here then (if c.required then none else some none) else some (some c)
    | none => some none
  return { s with candidates := candidates }

def roll (s : Scan) (column : Int) (number : Nat) (t : Token) : Scan :=
  if s.inFlow || column ≤ s.indent then s
  else { s.insert number t with indent := column, outer := s.indent :: s.outer }

def unroll (s : Scan) (column : Int) : Scan :=
  if s.inFlow then s
  else
    let closed := ((s.indent :: s.outer).takeWhile (column < ·)).length
    let left := (s.indent :: s.outer).drop closed
    { s with
      tokens := List.replicate closed .blockEnd ++ s.tokens
      indent := left.headD (-1)
      outer := left.tail }

/-- Go to the next token, over blanks, comments and line breaks. A line break outside of brackets lets
a key start. -/
def toToken : (fuel : Nat) → Scan → Scan
  | 0, s => s
  | fuel + 1, s =>
    let tabs := s.inFlow || !s.keyAllowed
    let ps := s.rest.dropWhile fun p => p.char == ' ' || (tabs && p.char == '\t')
    let ps := match ps with
      | p :: _ => if p.char == '#' then ps.dropWhile fun (q : Place) => !(q.char == '\x00' || isBreak q.char) else ps
      | [] => []
    match ps with
    | p :: rest =>
      if isBreak p.char then toToken fuel { s with rest := rest, keyAllowed := s.keyAllowed || !s.inFlow }
      else { s with rest := ps }
    | [] => { s with rest := [] }

def take (s : Scan) (n : Nat) (t : Token) : Scan :=
  { s with rest := s.rest.drop n }.add t

def versionNumber (ps : List Place) : Option (Nat × List Place) :=
  let (ds, rest) := spanChars (fun c => '0' ≤ c && c ≤ '9') ps
  if ds.isEmpty || 9 < ds.length then none
  else some (ds.foldl (fun n d => n * 10 + (d.toNat - 0x30)) 0, rest)

def tagHandle (directive : Bool) (ps : List Place) : Option (List Char × List Place) :=
  match ps with
  | p :: rest =>
    if p.char != '!' then none
    else
      let (name, rest) := spanChars isNameChar rest
      if ahead 0 rest == some '!' then some ('!' :: name ++ ['!'], rest.tail)
      else if directive && !name.isEmpty then none
      else some ('!' :: name, rest)
  | [] => none

def byteCount (n : Nat) : Nat :=
  if n < 0x80 then 1 else if n / 0x20 == 6 then 2 else if n / 0x10 == 14 then 3
  else if n / 8 == 30 then 4 else 0

def escapedByte (ps : List Place) : Option (Nat × List Place) :=
  match ps with
  | p :: rest => if p.char == '%' then (hexNumber? 2 rest).map fun n => (n, rest.drop 2) else none
  | [] => none

def moreBytes : (count : Nat) → List Place → Option (List Nat × List Place)
  | 0, ps => some ([], ps)
  | count + 1, ps => do
    let (n, ps) ← escapedByte ps
    if n / 0x40 != 2 then none
    let (ns, ps) ← moreBytes count ps
    return (n :: ns, ps)

def escapedChar (ps : List Place) : Option (List Char × List Place) := do
  let (first, ps) ← escapedByte ps
  if byteCount first = 0 then none
  let (more, ps) ← moreBytes (byteCount first - 1) ps
  let text ← Text.Utf8.decode? ((first :: more).map UInt8.ofNat)
  return (text.toList, ps)

def isTagChar (verbatim : Bool) (c : Char) : Bool :=
  isNameChar c || [';', '/', '?', ':', '@', '&', '=', '+', '$', '.', '!', '~', '*', '\'', '(', ')'].contains c ||
    (verbatim && [',', '[', ']'].contains c)

def tagTextFrom (verbatim : Bool) : (fuel : Nat) → (text : List Char) → List Place →
    Option (List Char × List Place)
  | 0, _, _ | _, _, [] => none
  | fuel + 1, text, p :: ps =>
    if p.char == '%' then do
      let (cs, rest) ← escapedChar (p :: ps)
      tagTextFrom verbatim fuel (cs.reverse ++ text) rest
    else if isTagChar verbatim p.char then tagTextFrom verbatim fuel (p.char :: text) ps
    else some (text.reverse, p :: ps)

def tagText (verbatim : Bool) (before : List Char) (ps : List Place) : Option (List Char × List Place) := do
  let (cs, rest) ← tagTextFrom verbatim (ps.length + 1) [] ps
  if before.isEmpty && cs.isEmpty then none
  return (before.tail ++ cs, rest)

def readTag (flow : Bool) (ps : List Place) : Option (Token × List Place) := do
  let (handle, text, rest) ←
    if ahead 1 ps == some '<' then do
      let (text, rest) ← tagText true [] (ps.drop 2)
      if ahead 0 rest != some '>' then none
      pure ([], text, rest.tail)
    else do
      let (handle, rest) ← tagHandle false ps
      if 1 < handle.length && handle.getLast? == some '!' then do
        let (text, rest) ← tagText false [] rest
        pure (handle, text, rest)
      else do
        let (text, rest) ← tagText false handle rest
        pure (if text.isEmpty then ([], ['!'], rest) else (['!'], text, rest))
  if endsWord (ahead 0 rest) || (flow && ahead 0 rest == some ',') then
    return (.tag (String.ofList handle) (String.ofList text), rest)
  else none

def readDirective (ps : List Place) : Option (Token × List Place) := do
  let (name, rest) := spanChars isNameChar ps
  if name.isEmpty || !endsWord (ahead 0 rest) then none
  if String.ofList name = "YAML" then
    let (major, rest) ← versionNumber (skipBlanks rest)
    if ahead 0 rest != some '.' then none
    let (minor, rest) ← versionNumber rest.tail
    return (.version major minor, ← lineEnd? rest)
  else if String.ofList name = "TAG" then
    let (handle, rest) ← tagHandle true (skipBlanks rest)
    if !(ahead 0 rest).any isBlank then none
    let (text, rest) ← tagText true [] (skipBlanks rest)
    if !endsWord (ahead 0 rest) then none
    return (.tagDirective (String.ofList handle) (String.ofList text), ← lineEnd? rest)
  else none

def readName (ps : List Place) : Option (String × List Place) :=
  let (name, rest) := spanChars isNameChar ps
  let ends := endsWord (ahead 0 rest) ||
    (ahead 0 rest).any ['?', ':', ',', ']', '\x7d', '%', '@', '\x60'].contains
  if name.isEmpty || !ends then none else some (String.ofList name, rest)

def atDocument (s : Scan) : Option Scan := do
  return { ← (s.unroll (-1)).dropCandidate with keyAllowed := false }

def openFlow (s : Scan) (t : Token) : Option Scan := do
  let s ← s.saveCandidate
  return { s.take 1 t with candidates := none :: s.candidates, keyAllowed := true }

def closeFlow (s : Scan) (t : Token) : Option Scan := do
  let s ← s.dropCandidate
  let outer := if s.inFlow then s.candidates.tail else s.candidates
  return { s.take 1 t with candidates := outer, keyAllowed := false }

def separate (s : Scan) : Option Scan := do
  return { (← s.dropCandidate).take 1 .flowEntry with keyAllowed := true }

def takeEntry (s : Scan) : Option Scan := do
  if !s.inFlow && !s.keyAllowed then none
  let s := s.roll s.here.column s.tokens.length .blockSequence
  return { (← s.dropCandidate).take 1 .entry with keyAllowed := true }

def takeKey (s : Scan) : Option Scan := do
  if !s.inFlow && !s.keyAllowed then none
  let s := s.roll s.here.column s.tokens.length .blockMapping
  return { (← s.dropCandidate).take 1 .key with keyAllowed := !s.inFlow }

/-- The colon before a value. It makes a key of what was remembered, if there is something. -/
def takeValue (s : Scan) : Option Scan := do
  match s.candidates.head?.join with
  | some c =>
    let s := (s.insert c.number .key).roll c.column c.number .blockMapping
    return { s.take 1 .value with candidates := none :: s.candidates.tail, keyAllowed := false }
  | none =>
    if !s.inFlow && !s.keyAllowed then none
    let s := s.roll s.here.column s.tokens.length .blockMapping
    return { s.take 1 .value with keyAllowed := !s.inFlow }

def takeNode (s : Scan) (read : List Place → Option (Token × List Place)) : Option Scan := do
  let s ← s.saveCandidate
  let (t, rest) ← read s.rest
  return { s with rest := rest, keyAllowed := false }.add t

def takeBlock (s : Scan) (literal : Bool) : Option Scan := do
  let s ← s.dropCandidate
  let (text, rest) ← blockScalar literal s.indent s.rest.tail
  return { s with rest := rest, keyAllowed := true }.add (.scalar (if literal then .literal else .other) text)

def takePlain (s : Scan) : Option Scan := do
  let s ← s.saveCandidate
  let (text, broken, rest) ← plainFrom s.inFlow (s.indent + 1) [] .empty s.rest
  return { s with rest := rest, keyAllowed := broken }.add (.scalar .plain text)

def readQuoted (single : Bool) (ps : List Place) : Option (Token × List Place) :=
  (quotedFrom single ps.length [] .empty ps.tail).map fun found => (.scalar .other found.1, found.2)

def indicators : List Char :=
  ['-', '?', ':', ',', '[', ']', '\x7b', '\x7d', '#', '&', '*', '!', '|', '>', '\'', '"', '%', '@', '\x60']

/-- Whether a plain scalar may start here. Some signs may start one if a word follows them. -/
def startsPlain (s : Scan) : Bool :=
  let c := s.here.char
  let next := ahead 1 s.rest
  !(endsWord (some c) || indicators.contains c) ||
    (c == '-' && !next.any isBlank) ||
    (!s.inFlow && (c == '?' || c == ':') && !endsWord next)

def token (s : Scan) : Option Scan :=
  let ps := s.rest
  let c := s.here.char
  let wordEnds := endsWord (ahead 1 ps)
  if s.here.column = 0 ∧ c = '%' then do
    let s ← s.atDocument
    let (t, rest) ← readDirective ps.tail
    return { s with rest := rest }.add t
  else if isMarker '-' ps then (s.atDocument).map (·.take 3 .documentStart)
  else if isMarker '.' ps then (s.atDocument).map (·.take 3 .documentEnd)
  else match c with
    | '[' => s.openFlow .flowSequence
    | '\x7b' => s.openFlow .flowMapping
    | ']' => s.closeFlow .flowSequenceEnd
    | '\x7d' => s.closeFlow .flowMappingEnd
    | ',' => s.separate
    | '*' => s.takeNode fun ps => (readName ps.tail).map fun found => (.alias found.1, found.2)
    | '&' => s.takeNode fun ps => (readName ps.tail).map fun found => (.anchor found.1, found.2)
    | '!' => s.takeNode (readTag s.inFlow)
    | '\'' => s.takeNode (readQuoted true)
    | '"' => s.takeNode (readQuoted false)
    | _ =>
      if c == '-' && wordEnds then s.takeEntry
      else if c == '?' && (s.inFlow || wordEnds) then s.takeKey
      else if c == ':' && (s.inFlow || wordEnds) then s.takeValue
      else if c == '|' && !s.inFlow then s.takeBlock true
      else if c == '>' && !s.inFlow then s.takeBlock false
      else if s.startsPlain then s.takePlain
      else none

def finish (s : Scan) : Option (List Token) := do
  return (← (s.unroll (-1)).dropCandidate).tokens.reverse

def run : (fuel : Nat) → Scan → Option (List Token)
  | 0, _ => none
  | fuel + 1, s => do
    let s ← (s.toToken (s.rest.length + 1)).dropStale
    let s := s.unroll s.here.column
    if s.here.char = '\x00' then s.finish else run fuel (← s.token)

end Scan

def tokens? (cs : List Char) : Option (List Token) := do
  let ps ← places? cs
  (Scan.start ps).run (ps.length + 1)

end SchedLedger.Yaml
