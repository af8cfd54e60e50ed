import SchedLedger.Yaml.Chars

/-! Scalars as they are spelled: plain, in quotes, and as blocks. A line break inside a plain or quoted
scalar counts as a space, and of several breaks all but the first count. -/

namespace SchedLedger.Yaml

/-- Blanks and line breaks between two parts of a scalar. Breaks are kept in the order of the text,
spaces backwards. -/
structure Gap where
  broken : Bool
  spaces : List Char
  first : List Char
  more : List Char

namespace Gap

def empty : Gap :=
  ⟨false, [], [], []⟩

def isEmpty (g : Gap) : Bool :=
  !g.broken && g.spaces.isEmpty

/-- Blanks after a line break are indentation and do not count. -/
def blank (c : Char) (g : Gap) : Gap :=
  if g.broken then g else { g with spaces := c :: g.spaces }

def lineBreak (c : Char) (g : Gap) : Gap :=
  if g.broken then { g with more := g.more ++ [c] } else ⟨true, [], [c], []⟩

def folded (g : Gap) : List Char :=
  if !g.broken then g.spaces
  else if g.first != ['\n'] then (g.first ++ g.more).reverse
  else if g.more.isEmpty then [' ']
  else g.more.reverse

end Gap

def flowMarks : List Char :=
  [',', '[', ']', '\x7b', '\x7d']

/-- Whether a plain scalar ends after a gap: where the indentation ends, at the start or end of a
document, and before a comment. -/
def endsPlain (flow : Bool) (indent : Int) (p : Place) (ps : List Place) : Bool :=
  (!flow && (p.column : Int) < indent) || isDocumentMarker (p :: ps) || p.char == '#'

/-- A plain scalar from a place on, its `text` so far backwards. The result says whether a line break
followed it. -/
def plainFrom (flow : Bool) (indent : Int) (text : List Char) (gap : Gap) :
    List Place → Option (String × Bool × List Place)
  | [] => none
  | p :: ps =>
    let done := some (String.ofList text.reverse, gap.broken, p :: ps)
    if isBlank p.char then
      if gap.broken && (p.column : Int) < indent && p.char == '\t' then none
      else plainFrom flow indent text (gap.blank p.char) ps
    else if isBreak p.char then plainFrom flow indent text (gap.lineBreak p.char) ps
    else if p.char == '\x00' || (!gap.isEmpty && endsPlain flow indent p ps) then done
    else if flow && p.char == ':' && (ahead 0 ps).any (fun c => c == '?' || flowMarks.contains c) then none
    else if (p.char == ':' && endsWord (ahead 0 ps)) || (flow && flowMarks.contains p.char) then done
    else plainFrom flow indent (p.char :: gap.folded ++ text) .empty ps

def escaped? : Char → Option Char
  | '0' => some '\x00'
  | 'a' => some '\x07'
  | 'b' => some '\x08'
  | 't' | '\t' => some '\t'
  | 'n' => some '\n'
  | 'v' => some '\x0B'
  | 'f' => some '\x0C'
  | 'r' => some '\r'
  | 'e' => some '\x1B'
  | ' ' => some ' '
  | '"' => some '"'
  | '/' => some '/'
  | '\\' => some '\\'
  | 'N' => some '\u0085'
  | '_' => some '\u00A0'
  | 'L' => some '\u2028'
  | 'P' => some '\u2029'
  | _ => none

def codeLength? : Char → Option Nat
  | 'x' => some 2
  | 'u' => some 4
  | 'U' => some 8
  | _ => none

def hexValue? (c : Char) : Option Nat :=
  if '0' ≤ c ∧ c ≤ '9' then some (c.toNat - 0x30)
  else if 'a' ≤ c ∧ c ≤ 'f' then some (c.toNat - 0x61 + 10)
  else if 'A' ≤ c ∧ c ≤ 'F' then some (c.toNat - 0x41 + 10)
  else none

def hexNumber? (n : Nat) (ps : List Place) : Option Nat :=
  if (ps.take n).length < n then none
  else (ps.take n).foldlM (fun v p => (hexValue? p.char).map (v * 16 + ·)) 0

def escape? : List Place → Option (Char × List Place)
  | [] => none
  | p :: ps =>
    match escaped? p.char, codeLength? p.char with
    | some c, _ => some (c, ps)
    | none, some n => do
      let v ← hexNumber? n ps
      if (0xD800 ≤ v && v ≤ 0xDFFF) || 0x10FFFF < v then none
      return (Char.ofNat v, ps.drop n)
    | none, none => none

def quotedFrom (single : Bool) : (fuel : Nat) → (text : List Char) → Gap → List Place →
    Option (String × List Place)
  | 0, _, _, _ | _, _, _, [] => none
  | fuel + 1, text, gap, p :: ps =>
    let joined := gap.folded ++ text
    if p.char == '\x00' || isDocumentMarker (p :: ps) then none
    else if isBlank p.char then quotedFrom single fuel text (gap.blank p.char) ps
    else if isBreak p.char then quotedFrom single fuel text (gap.lineBreak p.char) ps
    else if single then
      if p.char != '\'' then quotedFrom single fuel (p.char :: joined) .empty ps
      else if ahead 0 ps == some '\'' then quotedFrom single fuel ('\'' :: joined) .empty ps.tail
      else some (String.ofList joined.reverse, ps)
    else if p.char == '"' then some (String.ofList joined.reverse, ps)
    else if p.char != '\\' then quotedFrom single fuel (p.char :: joined) .empty ps
    else if (ahead 0 ps).any isBreak then quotedFrom single fuel joined ⟨true, [], [], []⟩ ps.tail
    else do
      let (c, rest) ← escape? ps
      quotedFrom single fuel (c :: joined) .empty rest

inductive Chomping
  | strip
  | clip
  | keep
deriving DecidableEq

/-- The marks after the sign of a block: its indentation, 0 if it is not given, and its chomping. -/
def blockHeader (ps : List Place) : Option (Nat × Chomping × List Place) :=
  let chomping? (ps : List Place) : Option (Chomping × List Place) := match ps with
    | p :: rest => if p.char == '+' then some (.keep, rest) else if p.char == '-' then some (.strip, rest) else none
    | [] => none
  let digit? (ps : List Place) : Option (Nat × List Place) := match ps with
    | p :: rest => if '0' ≤ p.char ∧ p.char ≤ '9' then some (p.char.toNat - 0x30, rest) else none
    | [] => none
  match chomping? ps with
  | some (chomping, ps) =>
    match digit? ps with
    | some (0, _) => none
    | some (n, ps) => some (n, chomping, ps)
    | none => some (0, chomping, ps)
  | none =>
    match digit? ps with
    | some (0, _) => none
    | some (n, ps) =>
      match chomping? ps with
      | some (chomping, ps) => some (n, chomping, ps)
      | none => some (n, .clip, ps)
    | none => some (0, .clip, ps)

/-- Indentation and empty lines inside a block: the deepest column seen, the line breaks, and what
follows. An `indent` of 0 is not known yet. -/
def blockBreaks (indent deepest : Nat) (breaks : List Char) :
    List Place → Option (Nat × List Char × List Place)
  | [] => none
  | p :: ps =>
    let inside := indent == 0 || p.column < indent
    if inside && p.char == ' ' then blockBreaks indent deepest breaks ps
    else if inside && p.char == '\t' then none
    else if isBreak p.char then blockBreaks indent (max deepest p.column) (breaks ++ [p.char]) ps
    else some (max deepest p.column, breaks, p :: ps)

/-- The lines of a block. `leading` is the break before the next line and `more` the breaks after it;
`blankBefore` says whether the line before starts with a blank. -/
def blockLines (literal : Bool) (indent : Nat) : (fuel : Nat) → (text leading more : List Char) →
    (blankBefore : Bool) → List Place → Option (List Char × List Char × List Char × List Place)
  | 0, _, _, _, _, _ | _, _, _, _, _, [] => none
  | fuel + 1, text, leading, more, blankBefore, p :: ps =>
    if p.column != indent || p.char == '\x00' then some (text, leading, more, p :: ps)
    else do
      let blank := isBlank p.char
      let join :=
        if !literal && leading == ['\n'] && !blankBefore && !blank then (if more.isEmpty then [' '] else more)
        else leading ++ more
      let (line, rest) := spanChars (fun c => !(c == '\x00' || isBreak c)) (p :: ps)
      let (leading, rest) := match rest with
        | q :: qs => if isBreak q.char then ([q.char], qs) else ([], q :: qs)
        | [] => ([], [])
      let (_, more, rest) ← blockBreaks indent 0 [] rest
      blockLines literal indent fuel (line.reverse ++ join.reverse ++ text) leading more blank rest

def blockScalar (literal : Bool) (parent : Int) (ps : List Place) : Option (String × List Place) := do
  let (given, chomping, ps) ← blockHeader ps
  let ps ← lineEnd? ps
  let fixed := if given = 0 then 0 else given + parent.toNat
  let (deepest, breaks, ps) ← blockBreaks fixed 0 [] ps
  let indent := if fixed = 0 then max (max deepest (parent + 1).toNat) 1 else fixed
  let (text, leading, more, ps) ← blockLines literal indent ps.length [] [] breaks false ps
  let text := if chomping = .strip then text else leading.reverse ++ text
  let text := if chomping = .keep then more.reverse ++ text else text
  return (String.ofList text.reverse, ps)

end SchedLedger.Yaml
