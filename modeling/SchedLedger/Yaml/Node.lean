import SchedLedger.Yaml.Token

/-! The nodes of a YAML document, and a document in its tokens. -/

namespace SchedLedger.Yaml

/-- An alias refers to an anchor by number. -/
inductive Node
  | scalar (tag : Option String) (kind : ScalarKind) (text : String)
  | sequence (items : List Node)
  | mapping (pairs : List (Node × Node))
  | alias (number : Nat)
deriving Inhabited

namespace Node

def empty : Node :=
  .scalar none .plain ""

end Node

/-- The anchors of a document. An anchor gets as its number the count of the names known before it; of
two anchors with one number the later one counts. -/
structure Anchors where
  names : List (String × Nat)
  marked : Nat
  nodes : List (Nat × Nat × Node)

namespace Anchors

def empty : Anchors :=
  ⟨[], 0, []⟩

def mark (a : Anchors) (name : String) : Anchors :=
  { a with names := (name, a.names.length) :: a.names.filter (·.1 ≠ name), marked := a.marked + 1 }

def enter (a : Anchors) (number position : Nat) (n : Node) : Anchors :=
  { a with nodes := (number, position, n) :: a.nodes }

def node? (a : Anchors) (number : Nat) : Option Node :=
  let found := a.nodes.filter (·.1 = number)
  match (found.map (·.2.1)).max? with
  | some last => (found.find? (·.2.1 = last)).map (·.2.2)
  | none => none

end Anchors

structure Stream where
  tokens : List Token
  anchors : Anchors

/-- A step that reads tokens; without a value the tokens fit no document. -/
abbrev Parse := StateT Stream Option

abbrev Handles := List (String × String)

namespace Parse

def peek : Parse (Option Token) :=
  return (← get).tokens.head?

def pop : Parse Unit :=
  modify fun s => { s with tokens := s.tokens.tail }

def accept (t : Token) : Parse Bool := do
  if (← peek) = some t then
    pop
    return true
  return false

def fullTag (handles : Handles) (handle rest : String) : Option String :=
  if handle = "" then some rest else (handles.lookup handle).map (· ++ rest)

def anchor? : Parse (Option String) := do
  match ← peek with
  | some (.anchor name) =>
    pop
    return some name
  | _ => return none

def tag? (handles : Handles) : Parse (Option String) := do
  match ← peek with
  | some (.tag handle rest) =>
    pop
    return some (← fullTag handles handle rest)
  | _ => return none

def properties (handles : Handles) : Parse (Option String × Option String) := do
  match ← anchor? with
  | some name => return (some name, ← tag? handles)
  | none => do
    let tag ← tag? handles
    return (← if tag.isSome then anchor? else pure none, tag)

def scalarTag (tag : Option String) : Option String :=
  tag.filter (· ≠ "!")

def nextIn (ts : List Token) : Parse Bool :=
  return match ← peek with
    | some t => ts.contains t
    | none => true

mutual

/-- A node. `block` allows block collections, and `indentless` a sequence that is not indented. -/
def node (handles : Handles) : (fuel : Nat) → (block indentless : Bool) → Parse Node
  | 0, _, _ => failure
  | fuel + 1, block, indentless => do
    if let some (.alias name) ← peek then
      pop
      return .alias (← (← get).anchors.names.lookup name)
    let before := (← get).anchors
    let (anchor, tag) ← properties handles
    if let some name := anchor then
      modify fun s => { s with anchors := s.anchors.mark name }
    let n ← content handles fuel block indentless (anchor.isSome || tag.isSome) tag
    if anchor.isSome then
      modify fun s => { s with anchors := s.anchors.enter before.names.length before.marked n }
    return n

def content (handles : Handles) : (fuel : Nat) → (block indentless marked : Bool) →
    (tag : Option String) → Parse Node
  | 0, _, _, _, _ => failure
  | fuel + 1, block, indentless, marked, tag => do
    match ← peek with
    | some (.scalar kind text) =>
      pop
      return .scalar (scalarTag tag) kind text
    | some .flowSequence =>
      pop
      return .sequence (← flowItems handles fuel true)
    | some .flowMapping =>
      pop
      return .mapping (← flowPairs handles fuel true)
    | some t =>
      if t = .entry ∧ indentless then return .sequence (← looseItems handles fuel)
      else if t = .blockSequence ∧ block then
        pop
        return .sequence (← blockItems handles fuel)
      else if t = .blockMapping ∧ block then
        pop
        return .mapping (← blockPairs handles fuel)
      else if marked then return .scalar (scalarTag tag) .plain ""
      else failure
    | none => if marked then return .scalar (scalarTag tag) .plain "" else failure

def nodeUnless (handles : Handles) : (fuel : Nat) → List Token → (block indentless : Bool) → Parse Node
  | 0, _, _, _ => failure
  | fuel + 1, ts, block, indentless => do
    if ← nextIn ts then return .empty else node handles fuel block indentless

def blockItems (handles : Handles) : (fuel : Nat) → Parse (List Node)
  | 0 => failure
  | fuel + 1 => do
    if ← accept .entry then
      let n ← nodeUnless handles fuel [.entry, .blockEnd] true false
      return n :: (← blockItems handles fuel)
    else if ← accept .blockEnd then return []
    else failure

def looseItems (handles : Handles) : (fuel : Nat) → Parse (List Node)
  | 0 => failure
  | fuel + 1 => do
    if ← accept .entry then
      let n ← nodeUnless handles fuel [.entry, .key, .value, .blockEnd] true false
      return n :: (← looseItems handles fuel)
    else return []

def blockValue (handles : Handles) : (fuel : Nat) → Parse Node
  | 0 => failure
  | fuel + 1 => do
    if ← accept .value then nodeUnless handles fuel [.key, .value, .blockEnd] true true
    else return .empty

def blockPairs (handles : Handles) : (fuel : Nat) → Parse (List (Node × Node))
  | 0 => failure
  | fuel + 1 => do
    if ← accept .key then
      let k ← nodeUnless handles fuel [.key, .value, .blockEnd] true true
      let v ← blockValue handles fuel
      return (k, v) :: (← blockPairs handles fuel)
    else if ← accept .blockEnd then return []
    else failure

def flowValue (handles : Handles) : (fuel : Nat) → (close : Token) → Parse Node
  | 0, _ => failure
  | fuel + 1, close => do
    if ← accept .value then nodeUnless handles fuel [.flowEntry, close] false false else return .empty

/-- A pair inside a sequence. A question mark without a key takes the next token with it. -/
def flowPair (handles : Handles) : (fuel : Nat) → Parse Node
  | 0 => failure
  | fuel + 1 => do
    let missing ← nextIn [.value, .flowEntry, .flowSequenceEnd]
    let k ← if missing then (do pop; pure Node.empty) else node handles fuel false false
    let v ← flowValue handles fuel .flowSequenceEnd
    return .mapping [(k, v)]

def flowItems (handles : Handles) : (fuel : Nat) → (first : Bool) → Parse (List Node)
  | 0, _ => failure
  | fuel + 1, first => do
    if ← accept .flowSequenceEnd then return []
    if !first then
      if !(← accept .flowEntry) then failure
    if ← accept .flowSequenceEnd then return []
    let n ← if ← accept .key then flowPair handles fuel else node handles fuel false false
    return n :: (← flowItems handles fuel false)

/-- The pairs of a mapping in braces, up to its end. A node without a colon has no value. -/
def flowPairs (handles : Handles) : (fuel : Nat) → (first : Bool) → Parse (List (Node × Node))
  | 0, _ => failure
  | fuel + 1, first => do
    if ← accept .flowMappingEnd then return []
    if !first then
      if !(← accept .flowEntry) then failure
    if ← accept .flowMappingEnd then return []
    let pair ← if ← accept .key then do
        let k ← nodeUnless handles fuel [.value, .flowEntry, .flowMappingEnd] false false
        let v ← flowValue handles fuel .flowMappingEnd
        pure (k, v)
      else do
        let k ← node handles fuel false false
        pure (k, Node.empty)
    return pair :: (← flowPairs handles fuel false)

end

/-- The directives before a document: at most one version, a known one, and the handles of tags. -/
def directives (version : Bool) (handles : Handles) : List Token → Option (Handles × List Token)
  | .version major minor :: ts =>
    if version || major != 1 || !(minor == 1 || minor == 2) then none else directives true handles ts
  | .tagDirective handle start :: ts =>
    if (handles.lookup handle).isSome then none else directives version ((handle, start) :: handles) ts
  | ts => some (handles, ts)

def standardHandles : Handles :=
  [("!", "!"), ("!!", "tag:yaml.org,2002:")]

def isDirective : Token → Bool
  | .version _ _ | .tagDirective _ _ => true
  | _ => false

end Parse

structure Document where
  root : Node
  anchors : Anchors

namespace Document

def resolve (d : Document) : Node → Option Node
  | .alias number => d.anchors.node? number
  | n => some n

def atEnd (ts : List Token) : Bool :=
  ts.all (· = .documentEnd)

def ofBody (handles : Handles) (ts : List Token) : Option Document := do
  let (root, left) ← (Parse.node handles (4 * ts.length + 4) true false).run ⟨ts, .empty⟩
  if atEnd left.tokens then return ⟨root, left.anchors⟩ else none

/-- The only document of a text; without any node it is the empty scalar. A text may also hold no
document at all. -/
def ofTokens (ts : List Token) : Option (Option Document) :=
  match ts with
  | [] => some none
  | t :: _ =>
    if Parse.isDirective t ∨ t = .documentStart then do
      let (handles, ts) ← Parse.directives false [] ts
      match ts with
      | .documentStart :: ts =>
        if atEnd ts then return some ⟨.empty, .empty⟩
        else return some (← ofBody (handles ++ Parse.standardHandles) ts)
      | _ => none
    else (ofBody Parse.standardHandles ts).map some

def read (text : String) : Option (Option Document) := do
  ofTokens (← tokens? text.toList)

end Document
end SchedLedger.Yaml
