import SchedLedger.Json.Reader
import SchedLedger.Trace.Event
import SchedLedger.Trace.RecordError

/-! Records of a trace, each one JSON object or list. The kind of a record is judged where it stands
in the text, so an unfit kind is reported also when the text after it is malformed. The other fields
are judged in order once the record was read to its end, and text after it is reported last. -/

namespace SchedLedger

open Json (Value)

inductive Record
  | task (declaration : Declaration)
  | event (event : Event)
deriving DecidableEq, Repr

namespace Record

/-! Fields -/

def wordBelow (limit : Nat) (expected : String) : Value → Except RecordError Nat
  | .integer n =>
    if 0 ≤ n ∧ n < limit then .ok n.toNat else .error (.invalidValue (.integer n) expected)
  | v => .error (.invalidType v expected)

def word32 (v : Value) : Except RecordError UInt32 :=
  (wordBelow UInt32.size "u32" v).map UInt32.ofNat

def word64 (v : Value) : Except RecordError UInt64 :=
  (wordBelow UInt64.size "u64" v).map UInt64.ofNat

def text : Value → Except RecordError String
  | .text s => .ok s
  | v => .error (.invalidType v "a string")

def textList : Value → Except RecordError (List String)
  | .list vs => vs.mapM text
  | v => .error (.invalidType v "a sequence")

def nullable {α : Type} (decode : Value → Except RecordError α) : Value → Except RecordError (Option α)
  | .null => .ok none
  | v => (decode v).map some

structure Draft where
  pid : Option Pid := none
  comm : Option String := none
  groups : Option (Option (List String)) := none
  residentBytes : Option (Option UInt64) := none
  unit : Option UnitId := none
  ts : Option UInt64 := none
  prev : Option Pid := none
  next : Option Pid := none

def fill {α : Type} (name : String) (old : Option α) (new : Except RecordError α) :
    Except RecordError (Option α) :=
  if old.isSome then .error (.duplicateField name) else new.map some

/-- Enter one member; a name that the kind does not know is passed over. -/
def Draft.enter (kind : Kind) (d : Draft) (m : String × Value) : Except RecordError Draft :=
  if m.1 ∉ kind.fields then .ok d
  else match m.1 with
    | "pid" => (fill "pid" d.pid (word32 m.2)).map ({ d with pid := · })
    | "comm" => (fill "comm" d.comm (text m.2)).map ({ d with comm := · })
    | "cgroup" => (fill "cgroup" d.groups (nullable textList m.2)).map ({ d with groups := · })
    | "rss_bytes" =>
      (fill "rss_bytes" d.residentBytes (nullable word64 m.2)).map ({ d with residentBytes := · })
    | "unit" => (fill "unit" d.unit (word32 m.2)).map ({ d with unit := · })
    | "ts" => (fill "ts" d.ts (word64 m.2)).map ({ d with ts := · })
    | "prev" => (fill "prev" d.prev (word32 m.2)).map ({ d with prev := · })
    | "next" => (fill "next" d.next (word32 m.2)).map ({ d with next := · })
    | _ => .ok d

def need {α : Type} (absent : String → RecordError) (name : String) : Option α → Except RecordError α
  | some a => .ok a
  | none => .error (absent name)

/-- The record of a draft. The name and the groups of a task may be left out, and its size too. -/
def Draft.finish (kind : Kind) (absent : String → RecordError) (d : Draft) :
    Except RecordError Record :=
  match kind with
  | .task => do
    let pid ← need absent "pid" d.pid
    return .task ⟨pid, d.comm.getD "", d.groups.getD none, d.residentBytes.getD none⟩
  | .switch => do
    let unit ← need absent "unit" d.unit
    let ts ← need absent "ts" d.ts
    let prev ← need absent "prev" d.prev
    let next ← need absent "next" d.next
    return .event (.switch unit ts prev next)
  | .fault => do
    let unit ← need absent "unit" d.unit
    let pid ← need absent "pid" d.pid
    return .event (.fault unit pid)

def ofMembers (kind : Kind) (members : List (String × Value)) : Except RecordError Record := do
  (← members.foldlM (Draft.enter kind) {}).finish kind .missingField

def elementCount (n : Nat) : String :=
  if n = 1 then "1 element in sequence" else s!"{n} elements in sequence"

def ofElements (kind : Kind) (elements : List Value) : Except RecordError Record := do
  let draft ← (kind.fields.zip elements).foldlM (Draft.enter kind) {}
  let record ← draft.finish kind fun _ => .invalidLength elements.length kind.listForm
  if kind.fields.length < elements.length then
    .error (.invalidLength elements.length (elementCount kind.fields.length))
  else .ok record

/-! Text -/

def wellFormed {α : Type} (reason : String) : Option α → Except RecordError α
  | some a => .ok a
  | none => .error (.malformed reason)

/-- The kind at the start of a text. A container is refused at its first character. -/
def readKind (cs : List Char) : Except RecordError (Kind × List Char) :=
  match Json.skipBlank cs with
  | '"' :: cs => do
    let (name, rest) ← wellFormed "unfinished string" (Json.stringTail cs)
    match Kind.ofName? name with
    | some kind => .ok (kind, rest)
    | none => .error (.unknownKind name)
  | '[' :: _ => .error (.invalidType (.list []) "variant identifier")
  | '\x7b' :: _ => .error (.invalidType (.object []) "variant identifier")
  | cs => do
    let (v, _) ← wellFormed "expected value" (Json.scalar cs)
    .error (.invalidType v "variant identifier")

/-- A value inside a record, which takes one level of nesting itself. -/
def readValue (cs : List Char) : Except RecordError (Value × List Char) :=
  wellFormed "expected value" (Json.value (Json.depthLimit - 1) cs)

/-- The members of an object from the next name on, up to its end; `kind` is the kind if it was met
already. -/
def readMembers : (fuel : Nat) → (kind : Option Kind) → List Char →
    Except RecordError (Kind × List (String × Value) × List Char)
  | 0, _, _ => .error (.malformed "unfinished object")
  | fuel + 1, kind, cs => do
    let (name, rest) ← wellFormed "expected name" (Json.memberName cs)
    if name = "kind" ∧ kind.isSome then .error (.duplicateField "kind")
    let rest ← wellFormed "expected `:`" (Json.memberColon rest)
    let (kind, entry, rest) ←
      if name = "kind" then (readKind rest).map fun found => (some found.1, [], found.2)
      else (readValue rest).map fun found => (kind, [(name, found.1)], found.2)
    match Json.skipBlank rest with
    | ',' :: rest => do
      let (kind, entries, rest) ← readMembers fuel kind rest
      return (kind, entry ++ entries, rest)
    | '\x7d' :: rest =>
      match kind with
      | some kind => return (kind, entry, rest)
      | none => .error (.missingField "kind")
    | _ => .error (.malformed "expected `,` or `\x7d`")

def readObject (cs : List Char) : Except RecordError (Record × List Char) :=
  match Json.skipBlank cs with
  | '\x7d' :: _ => .error (.missingField "kind")
  | cs => do
    let (kind, members, rest) ← readMembers cs.length none cs
    return (← ofMembers kind members, rest)

def readList (cs : List Char) : Except RecordError (Record × List Char) :=
  match Json.skipBlank cs with
  | ']' :: _ => .error (.missingField "kind")
  | cs => do
    let (kind, rest) ← readKind cs
    match Json.skipBlank rest with
    | ']' :: rest => return (← ofElements kind [], rest)
    | ',' :: rest => do
      let (elements, rest) ← wellFormed "expected value"
        (Json.itemsUpTo ']' (Json.value (Json.depthLimit - 1)) (rest.length + 1) rest)
      return (← ofElements kind elements, rest)
    | _ => .error (.malformed "expected `,` or `]`")

def read (cs : List Char) : Except RecordError Record := do
  let (record, rest) ← match Json.skipBlank cs with
    | '\x7b' :: cs => readObject cs
    | '[' :: cs => readList cs
    | cs => do
      let (v, _) ← wellFormed "expected value" (Json.scalar cs)
      .error (.invalidType v "internally tagged enum Record")
  if (Json.skipBlank rest).isEmpty then .ok record else .error (.malformed "trailing characters")

def checked : Record → Except RecordError Record
  | .task d => if d.pid = 0 then .error .idleTask else .ok (.task d)
  | .event e => if unitLimit ≤ e.unit.toNat then .error (.unitTooLarge e.unit) else .ok (.event e)

end Record
end SchedLedger
