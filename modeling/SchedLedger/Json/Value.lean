import SchedLedger.Decimal.Shortest
import SchedLedger.Text.Quoted

/-! Values of the JSON data format. Members of an object keep their order and may repeat a name. -/

namespace SchedLedger.Json

/-- An integer lies between the least signed and the greatest unsigned 64-bit word; other numbers
are floats. -/
inductive Value
  | null
  | bool (b : Bool)
  | integer (n : Int)
  | real (x : Float)
  | text (s : String)
  | list (elements : List Value)
  | object (members : List (String × Value))
deriving Inhabited

/-- Numbers are written positionally up to sixteen digits, and always as fractions. -/
def floatStyle : Decimal.FloatStyle :=
  ⟨-5, 15, true, true⟩

def floatText? (x : Float) : Option String :=
  match Decimal.Shape.ofFloat x with
  | .nan | .infinite _ => none
  | .finite negative m => some (Decimal.signed negative (String.ofList (Decimal.layout floatStyle m)))

def Value.describe : Value → String
  | .null => "null"
  | .bool b => s!"boolean `{b}`"
  | .integer n => s!"integer `{n}`"
  | .real x => "floating point `" ++ (floatText? x).getD "null" ++ "`"
  | .text s => "string " ++ Text.quoted s
  | .list _ => "sequence"
  | .object _ => "map"

end SchedLedger.Json
