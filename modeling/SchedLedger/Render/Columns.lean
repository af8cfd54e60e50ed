import SchedLedger.Text.Blank

/-! Text in columns: every column is as wide as its widest cell, two spaces stand between columns, and
lines do not end in blanks. Rows may be shorter or longer than the header. -/

namespace SchedLedger

structure Columns where
  header : List String
  rows : List (List String)
deriving DecidableEq

namespace Columns

def gap : Nat := 2

def widen : List Nat → List String → List Nat
  | ws, [] => ws
  | [], c :: cs => c.length :: widen [] cs
  | w :: ws, c :: cs => max w c.length :: widen ws cs

def widths (t : Columns) : List Nat :=
  (t.header :: t.rows).foldl widen []

/-- The cells of a row at their positions; the last one is not padded. -/
def line : List Nat → List String → List Char
  | _, [] => []
  | _, [c] => c.toList
  | [], c :: cs => c.toList ++ line [] cs
  | w :: ws, c :: cs => c.toList ++ List.replicate (w - c.length + gap) ' ' ++ line ws cs

def render (t : Columns) : List Char :=
  (t.header :: t.rows).flatMap fun row => Text.trimEndChars (line t.widths row) ++ ['\n']

end Columns
end SchedLedger
