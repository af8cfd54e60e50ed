import SchedLedger.Json.Value

/-! JSON text with one element or member a line, indented by two spaces a level. -/

namespace SchedLedger.Json

def escapedChar (c : Char) : List Char :=
  match c with
  | '"' => ['\\', '"']
  | '\\' => ['\\', '\\']
  | '\x08' => ['\\', 'b']
  | '\x0C' => ['\\', 'f']
  | '\n' => ['\\', 'n']
  | '\r' => ['\\', 'r']
  | '\t' => ['\\', 't']
  | c => if c < ' ' then '\\' :: 'u' :: Text.hexFixed 4 c.toNat else [c]

def stringText (s : String) : List Char :=
  '"' :: s.toList.flatMap escapedChar ++ ['"']

def lineStart (level : Nat) : List Char :=
  '\n' :: List.replicate (2 * level) ' '

def bracketed (opening closing : Char) (level : Nat) (items : List (List Char)) : List Char :=
  if items.isEmpty then [opening, closing]
  else
    opening :: [','].intercalate (items.map (lineStart (level + 1) ++ ·)) ++ lineStart level ++ [closing]

mutual

/-- A value whose first line stands at a level. A number that is none is null. -/
def prettyAt (level : Nat) : Value → List Char
  | .null => "null".toList
  | .bool b => (if b then "true" else "false").toList
  | .integer n => (toString n).toList
  | .real x => ((floatText? x).getD "null").toList
  | .text s => stringText s
  | .list vs => bracketed '[' ']' level (prettyElements (level + 1) vs)
  | .object ms => bracketed '\x7b' '\x7d' level (prettyMembers (level + 1) ms)

def prettyElements (level : Nat) : List Value → List (List Char)
  | [] => []
  | v :: vs => prettyAt level v :: prettyElements level vs

def prettyMembers (level : Nat) : List (String × Value) → List (List Char)
  | [] => []
  | (name, v) :: ms => (stringText name ++ ':' :: ' ' :: prettyAt level v) :: prettyMembers level ms

end

def pretty (v : Value) : String :=
  String.ofList (prettyAt 0 v)

end SchedLedger.Json
