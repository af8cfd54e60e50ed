/-! Lines: every newline ends one, and a rest after the last newline is one more. -/

namespace SchedLedger.Text

variable {α : Type} [DecidableEq α]

/-- The lines of a sequence. `done` holds the lines already read and `current` the part of the next
one, both backwards. -/
def linesFrom (newline : α) (done : List (List α)) (current : List α) : List α → List (List α)
  | [] => (if current = [] then done else current.reverse :: done).reverse
  | x :: xs =>
    if x = newline then linesFrom newline (current.reverse :: done) [] xs
    else linesFrom newline done (x :: current) xs

def lines (newline : α) (xs : List α) : List (List α) :=
  linesFrom newline [] [] xs

theorem linesFrom_eq (newline : α) (done : List (List α)) (current xs : List α) :
    linesFrom newline done current xs = done.reverse ++ linesFrom newline [] current xs := by
  induction xs generalizing done current with
  | nil => by_cases h : current = [] <;> simp [linesFrom, h]
  | cons x xs ih =>
    simp only [linesFrom]
    split
    · rw [ih (current.reverse :: done), ih [current.reverse]]; simp
    · exact ih done _

theorem linesFrom_append_newline (newline : α) (current xs ys : List α) :
    linesFrom newline [] current (xs ++ newline :: ys) =
      linesFrom newline [] current (xs ++ [newline]) ++ lines newline ys := by
  induction xs generalizing current with
  | nil => rw [List.nil_append, linesFrom, if_pos rfl, linesFrom_eq]; simp [linesFrom, lines]
  | cons x xs ih =>
    simp only [List.cons_append, linesFrom]
    split
    · rw [linesFrom_eq, ih, linesFrom_eq newline [current.reverse]]; simp
    · exact ih _

theorem lines_append_newline (newline : α) (xs ys : List α) :
    lines newline (xs ++ newline :: ys) = lines newline (xs ++ [newline]) ++ lines newline ys :=
  linesFrom_append_newline newline [] xs ys

end SchedLedger.Text
