import SchedLedger.Render.Columns
import Mathlib.Algebra.GroupWithZero.Nat
import Mathlib.Data.List.Forall2
import Mathlib.Data.List.TakeWhile

/-! Text in columns lines up. The width of a column is the greatest length of its cells, so every cell has a width that
is not less than its length, and the cells of a column start at one place in all lines, however long the rows are. -/

namespace SchedLedger.Columns

/-- The cells of column `j`, from the header down; rows that are too short have none. -/
def column (t : Columns) (j : Nat) : List String :=
  (t.header :: t.rows).filterMap (·[j]?)

section Widths

variable {t : Columns} {row : List String} {cell : String}

theorem getElem?_widen (ws : List Nat) (row : List String) (j : Nat) :
    (widen ws row)[j]? = Option.merge max ws[j]? (row[j]?.map String.length) := by
  induction row generalizing ws j with
  | nil => simp [widen]
  | cons c cs ih =>
    cases ws with
    | nil => cases j <;> simp [widen, ih]
    | cons w ws => cases j <;> simp [widen, ih]

theorem max?_merge_append (a b : Option Nat) (ns : List Nat) :
    ((Option.merge max a b).toList ++ ns).max? = (a.toList ++ (b.toList ++ ns)).max? := by
  cases a with
  | none => cases b <;> rfl
  | some m => cases b <;> rfl

theorem getElem?_foldl_widen (rows : List (List String)) (ws : List Nat) (j : Nat) :
    (rows.foldl widen ws)[j]? = (ws[j]?.toList ++ rows.filterMap fun row => row[j]?.map String.length).max? := by
  induction rows generalizing ws with
  | nil => cases h : ws[j]? <;> simp [h]
  | cons row rows ih =>
    rw [List.foldl_cons, ih, getElem?_widen, max?_merge_append]
    cases h : row[j]? <;> simp [h]

theorem getElem?_widths (t : Columns) (j : Nat) : t.widths[j]? = ((t.column j).map String.length).max? := by
  rw [widths, getElem?_foldl_widen, column, List.map_filterMap]
  rfl

/-- Every cell stands in a column that is wide enough for it. -/
theorem exists_width (hrow : row ∈ t.header :: t.rows) {i : Nat} (hcell : row[i]? = some cell) :
    ∃ w, t.widths[i]? = some w ∧ cell.length ≤ w := by
  have hmem : cell.length ∈ (t.column i).map String.length :=
    List.mem_map_of_mem (List.mem_filterMap.2 ⟨row, hrow, hcell⟩)
  rw [getElem?_widths]
  cases hmax : ((t.column i).map String.length).max? with
  | none => simp [List.max?_eq_none_iff.1 hmax] at hmem
  | some w => exact ⟨w, rfl, (List.max?_eq_some_iff.1 hmax).2 _ hmem⟩

end Widths

/-- Where column `i` starts: behind the columns before it, each with a gap of two after it. -/
def start (ws : List Nat) (i : Nat) : Nat :=
  ((ws.take i).map (· + 2)).sum

theorem start_cons (w : Nat) (ws : List Nat) (i : Nat) : start (w :: ws) (i + 1) = w + 2 + start ws i := by
  simp [start]

/-- How a row stands in a line. Every cell has a width that is not less than its length and starts where its column
does; blanks fill the way to the next column, and nothing follows the last cell. -/
structure LaidOut (ws : List Nat) (row : List String) (line : List Char) : Prop where
  void : row = [] → line = []
  placed : ∀ (i : Nat) (cell : String), row[i]? = some cell → ∃ w before after, ws[i]? = some w ∧ cell.length ≤ w ∧
    line = before ++ cell.toList ++ after ∧ before.length = start ws i ∧
    if i + 1 < row.length then List.replicate (w - cell.length + 2) ' ' <+: after else after = []

theorem laidOut_line {ws : List Nat} {row : List String}
    (h : ∀ (i : Nat) (cell : String), row[i]? = some cell → ∃ w, ws[i]? = some w ∧ cell.length ≤ w) :
    LaidOut ws row (line ws row) := by
  fun_induction line ws row with
  | case1 ws => exact ⟨fun _ => rfl, fun i cell hcell => by simp at hcell⟩
  | case2 ws c =>
    refine ⟨fun hrow => by simp at hrow, fun i cell hcell => ?_⟩
    obtain ⟨w, hw, hle⟩ := h i cell hcell
    cases i with
    | zero =>
      obtain rfl : c = cell := by simpa using hcell
      exact ⟨w, [], [], hw, hle, by simp, rfl, by simp⟩
    | succ i => simp at hcell
  | case3 c cs =>
    -- the first cell has a width
    obtain ⟨w, hw, -⟩ := h 0 c rfl
    simp at hw
  | case4 w ws c cs hmore ih =>
    obtain ⟨-, hplaced⟩ := ih fun i cell hcell => h (i + 1) cell hcell
    refine ⟨fun hrow => by simp at hrow, fun i cell hcell => ?_⟩
    have hrest : 0 < cs.length := List.length_pos_iff.2 hmore
    obtain ⟨w', hw', hle⟩ := h i cell hcell
    cases i with
    | zero =>
      obtain rfl : c = cell := by simpa using hcell
      obtain rfl : w = w' := by simpa using hw'
      refine ⟨w, [], _, hw', hle, List.append_assoc _ _ _, rfl, ?_⟩
      rw [if_pos (by simpa using hrest)]
      exact List.prefix_append _ _
    | succ i =>
      obtain ⟨v, before, after, hv, hfits, hline, hbefore, hafter⟩ := hplaced i cell hcell
      obtain ⟨w₀, hw₀, hle₀⟩ := h 0 c rfl
      obtain rfl : w = w₀ := by simpa using hw₀
      refine ⟨v, c.toList ++ List.replicate (w - c.length + gap) ' ' ++ before, after, hv, hfits, ?_, ?_, ?_⟩
      · rw [hline]
        simp only [List.append_assoc]
      · rw [start_cons, ← hbefore]
        simp only [List.length_append, String.length_toList, List.length_replicate, gap]
        omega
      · simpa using hafter

structure EndTrimmed (line piece : List Char) : Prop where
  cut : ∃ blanks, line = piece ++ blanks ∧ ∀ c ∈ blanks, Text.isBlank c = true
  last : ∀ c ∈ piece.getLast?, Text.isBlank c = false

theorem endTrimmed_trimEndChars (line : List Char) : EndTrimmed line (Text.trimEndChars line) := by
  constructor
  · refine ⟨(line.reverse.takeWhile Text.isBlank).reverse, ?_, fun c hc => ?_⟩
    · rw [Text.trimEndChars, ← List.reverse_append, List.takeWhile_append_dropWhile, List.reverse_reverse]
    · exact List.mem_takeWhile_imp (List.mem_reverse.1 hc)
  · intro c hc
    have hhead := List.head?_dropWhile_not Text.isBlank line.reverse
    rw [Text.trimEndChars, List.getLast?_reverse, Option.mem_def] at hc
    rw [hc] at hhead
    simpa using hhead

/-- A table is written line by line, the header first. The width of every column is the greatest length of its cells.
Each line is a row laid out in these widths, without the white space at its end, so that the cells of a column start
at the same place in all lines. -/
theorem columns_align (t : Columns) :
    (∀ j, t.widths[j]? = ((t.column j).map String.length).max?) ∧
    ∃ lines pieces, List.Forall₂ (LaidOut t.widths) (t.header :: t.rows) lines ∧
      List.Forall₂ EndTrimmed lines pieces ∧ t.render = pieces.flatMap (· ++ ['\n']) := by
  refine ⟨t.getElem?_widths, (t.header :: t.rows).map (line t.widths),
    (t.header :: t.rows).map fun row => Text.trimEndChars (line t.widths row), ?_, ?_, ?_⟩
  · rw [List.forall₂_map_right_iff, List.forall₂_same]
    exact fun row hrow => laidOut_line fun i cell hcell => exists_width hrow hcell
  · rw [List.forall₂_map_left_iff, List.forall₂_map_right_iff, List.forall₂_same]
    exact fun row _ => endTrimmed_trimEndChars _
  · rw [render, List.flatMap_map]

example : render ⟨["A", "LONGER"], [["wide cell", "x"], [], ["b", "", " "]]⟩ =
    "A          LONGER\nwide cell  x\n\nb\n".toList := by
  decide

end SchedLedger.Columns
