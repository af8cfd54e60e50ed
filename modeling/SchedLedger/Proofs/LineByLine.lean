import SchedLedger.Proofs.Acceptance
import Mathlib.Data.List.TakeWhile

/-! Traces line by line. Every line is read on its own, so a text that goes on after a newline is read as its two
parts are: a failure of the first part stands, one of the second part is met further down by the lines of the
first, and what both parts hold is joined in their order. -/

namespace SchedLedger

namespace Text

variable {α : Type} [DecidableEq α] {newline : α} {xs : List α}

/-- No text at all, or one whose last line is ended. -/
def Ended (newline : α) (xs : List α) : Prop :=
  xs = [] ∨ ∃ ys, xs = ys ++ [newline]

theorem lines_append (h : Ended newline xs) (ys : List α) :
    lines newline (xs ++ ys) = lines newline xs ++ lines newline ys := by
  rcases h with rfl | ⟨zs, rfl⟩
  · rfl
  · rw [List.append_assoc, List.singleton_append, lines_append_newline]

theorem length_linesFrom_concat (current xs : List α) :
    (linesFrom newline [] current (xs ++ [newline])).length = xs.count newline + 1 := by
  induction xs generalizing current with
  | nil => simp [linesFrom]
  | cons x xs ih =>
    rw [List.cons_append, linesFrom]
    by_cases hx : x = newline
    · rw [if_pos hx, linesFrom_eq, List.length_append, ih, List.count_cons, hx]
      simp only [List.reverse_cons, List.length_append, List.length_reverse, List.length_nil,
        List.length_singleton, beq_self_eq_true, if_true]
      omega
    · rw [if_neg hx, ih, List.count_cons_of_ne hx]

theorem length_lines (h : Ended newline xs) : (lines newline xs).length = xs.count newline := by
  rcases h with rfl | ⟨ys, rfl⟩
  · rfl
  · rw [lines, length_linesFrom_concat, List.count_append, List.count_singleton_self]

theorem linesFrom_append_of_notMem (h : newline ∉ xs) (current ys : List α) :
    linesFrom newline [] current (xs ++ ys) = linesFrom newline [] (xs.reverse ++ current) ys := by
  induction xs generalizing current with
  | nil => rfl
  | cons x xs ih =>
    rw [List.mem_cons, not_or] at h
    rw [List.cons_append, linesFrom, if_neg (Ne.symm h.1), ih h.2, List.reverse_cons, List.append_assoc]
    rfl

theorem lines_of_notMem (h : newline ∉ xs) (hne : xs ≠ []) : lines newline xs = [xs] := by
  have hlines := linesFrom_append_of_notMem h [] []
  rw [List.append_nil, List.append_nil] at hlines
  simp [lines, hlines, linesFrom, hne]

theorem lines_concat_of_notMem (h : newline ∉ xs) : lines newline (xs ++ [newline]) = [xs] := by
  simp [lines, linesFrom_append_of_notMem h, linesFrom]

end Text

/-- The failure as it is met when so many lines stand before. -/
def Failure.below (lines : Nat) : Failure → Failure
  | .trace line cause => .trace (lines + line) cause
  | .io cause => .io cause
  | .settings cause => .settings cause
  | .overflow => .overflow

namespace Trace

def append (t t' : Trace) : Trace :=
  ⟨t.tasks ++ t'.tasks, t.events ++ t'.events⟩

theorem ofRecords_append (rs rs' : List (Option Record)) :
    ofRecords (rs ++ rs') = (ofRecords rs).append (ofRecords rs') := by
  simp [ofRecords, append]

/-! Lines and their numbers -/

variable {reader : RecordReader}

theorem readLine_add (n number : Nat) (line : Bytes) :
    readLine reader (n + number) line = (readLine reader number line).mapError (.below n) := by
  unfold readLine
  split
  · rfl
  · dsimp only
    split
    · rfl
    · split <;> rfl

theorem readLines_cons (number : Nat) (line : Bytes) (lines : List Bytes) :
    readLines reader number (line :: lines) =
      (readLine reader number line).bind fun r => (readLines reader (number + 1) lines).map (r :: ·) := by
  rw [readLines, List.zipIdx_cons, List.mapM_cons]
  rfl

theorem readLines_append (number : Nat) (lines lines' : List Bytes) :
    readLines reader number (lines ++ lines') =
      (readLines reader number lines).bind fun rs =>
        (readLines reader (number + lines.length) lines').map (rs ++ ·) := by
  rw [readLines, List.zipIdx_append, List.mapM_append]
  rfl

theorem readLines_add (n number : Nat) (lines : List Bytes) :
    readLines reader (n + number) lines = (readLines reader number lines).mapError (.below n) := by
  induction lines generalizing number with
  | nil => rfl
  | cons line lines ih =>
    rw [readLines_cons, readLines_cons, readLine_add, Nat.add_assoc, ih]
    cases readLine reader number line with
    | error e => rfl
    | ok r => cases readLines reader (number + 1) lines <;> rfl

theorem read_append {a : Bytes} (h : Text.Ended 0x0A a) (b : Bytes) :
    readWith reader (a ++ b) =
      (readWith reader a).bind fun t => ((readWith reader b).mapError (.below (a.count 0x0A))).map t.append := by
  rw [readWith, Text.lines_append h, readLines_append, Text.length_lines h, Nat.add_comm, readLines_add, readWith,
    readWith]
  cases readLines reader 1 (Text.lines 0x0A a) with
  | error e => rfl
  | ok rs =>
    cases readLines reader 1 (Text.lines 0x0A b) with
    | error e => rfl
    | ok rs' => exact congrArg Except.ok (ofRecords_append rs rs')

/-! Lines without a record -/

/-- A line of white space, or a comment: the first character that is not blank, if there is one, is `#`. -/
def Skipped (line : Bytes) : Prop :=
  0x0A ∉ line ∧ ∃ s, Text.Utf8.decode? line = some s ∧ ∀ c ∈ s.toList.find? (!Text.isBlank ·), c = '#'

theorem trimEndChars_cons {c : Char} (h : Text.isBlank c = false) (cs : List Char) :
    Text.trimEndChars (c :: cs) = c :: Text.trimEndChars cs := by
  rw [Text.trimEndChars, List.reverse_cons, List.dropWhile_append]
  split
  · next hblank => simp [Text.trimEndChars, List.isEmpty_iff.1 hblank, h]
  · rw [List.reverse_append]
    rfl

/-- Trimming decides which lines are skipped: it leaves the first character that is not blank in front. -/
theorem isVoid_trimChars_iff (cs : List Char) :
    isVoid (Text.trimChars cs) = true ↔ ∀ c ∈ cs.find? (!Text.isBlank ·), c = '#' := by
  rw [Text.trimChars, Text.trimStartChars, List.find?_eq_head?_dropWhile_not]
  simp only [Bool.not_not]
  cases hcs : cs.dropWhile Text.isBlank with
  | nil => simp [isVoid, Text.trimEndChars]
  | cons c rest =>
    have hc : Text.isBlank c = false := by
      have hhead := List.head?_dropWhile_not Text.isBlank cs
      rw [hcs] at hhead
      simpa using hhead
    rw [trimEndChars_cons hc]
    simp [isVoid]

theorem readLine_of_skipped {line : Bytes} (h : Skipped line) (number : Nat) :
    readLine reader number line = .ok none := by
  obtain ⟨-, s, hs, hfirst⟩ := h
  simp only [readLine, hs, (isVoid_trimChars_iff s.toList).2 hfirst, if_true]

theorem read_concat {line : Bytes} (h : 0x0A ∉ line) :
    readWith reader (line ++ [0x0A]) = (readLine reader 1 line).map fun r => ofRecords [r] := by
  rw [readWith, Text.lines_concat_of_notMem h, readLines_cons]
  cases readLine reader 1 line <;> rfl

theorem read_of_skipped {line : Bytes} (h : Skipped line) : readWith reader line = .ok ⟨[], []⟩ := by
  by_cases hline : line = []
  · rw [hline]
    rfl
  · rw [readWith, Text.lines_of_notMem h.1 hline, readLines_cons, readLine_of_skipped h]
    rfl

theorem read_concat_of_skipped {line : Bytes} (h : Skipped line) :
    readWith reader (line ++ [0x0A]) = .ok ⟨[], []⟩ := by
  rw [read_concat h.1, readLine_of_skipped h]
  rfl

theorem read_concat_of_record {line : Bytes} (hnewline : 0x0A ∉ line) (h : ¬ Skipped line) :
    readWith reader (line ++ [0x0A]) =
      match Text.Utf8.decode? line with
      | none => .error (.io .notUtf8)
      | some s =>
        match reader (Text.trimChars s.toList) >>= Record.checked with
        | .ok record => .ok (ofRecords [some record])
        | .error cause => .error (.trace 1 cause) := by
  rw [read_concat hnewline, readLine]
  cases hs : Text.Utf8.decode? line with
  | none => rfl
  | some s =>
    have hvoid : isVoid (Text.trimChars s.toList) = false := by
      rw [Bool.eq_false_iff, Ne, isVoid_trimChars_iff]
      exact fun hfirst => h ⟨hnewline, s, hs, hfirst⟩
    simp only [hvoid, Bool.false_eq_true, if_false]
    cases reader (Text.trimChars s.toList) >>= Record.checked <;> rfl

/-- Lines without a record add nothing to the text before them. -/
theorem read_append_of_empty {a b : Bytes} (ha : Text.Ended 0x0A a) (hb : readWith reader b = .ok ⟨[], []⟩) :
    readWith reader (a ++ b) = readWith reader a := by
  rw [read_append ha, hb]
  cases readWith reader a with
  | error e => rfl
  | ok t => simp [Except.bind, Except.mapError, Except.map, append]

theorem read_append_skipped {a line : Bytes} (ha : Text.Ended 0x0A a) (h : Skipped line) (b : Bytes) :
    readWith reader (a ++ (line ++ 0x0A :: b)) =
      (readWith reader a).bind fun t => ((readWith reader b).mapError (.below (a.count 0x0A + 1))).map t.append := by
  have hended : Text.Ended 0x0A (a ++ (line ++ [0x0A])) := .inr ⟨a ++ line, by rw [List.append_assoc]⟩
  have hcount : (a ++ (line ++ [0x0A])).count 0x0A = a.count 0x0A + 1 := by
    rw [List.count_append, List.count_append, List.count_eq_zero.2 h.1, List.count_singleton_self]
  have hsplit : a ++ (line ++ 0x0A :: b) = a ++ (line ++ [0x0A]) ++ b := by
    simp only [List.append_assoc, List.singleton_append]
  rw [hsplit, read_append hended, hcount, read_append_of_empty ha (read_concat_of_skipped h)]

/-- A text that was read up to a newline is read on line by line: what failed stays failed; a record that cannot be
read fails the text at the line where it stands, counted over both parts; and what both parts hold is joined. A
line without a record only counts, any other line yields what the reader of records finds in its trimmed text, and
whatever is accepted is fit for a replay. -/
theorem read_line_by_line (reader : RecordReader) {a : Bytes} (ha : Text.Ended 0x0A a) (b : Bytes) :
    (∀ e, readWith reader a = .error e → readWith reader (a ++ b) = .error e) ∧
    (∀ t, readWith reader a = .ok t →
      (∀ line cause, readWith reader b = .error (.trace line cause) →
        readWith reader (a ++ b) = .error (.trace (line + a.count 0x0A) cause)) ∧
      (∀ cause, readWith reader b = .error (.io cause) → readWith reader (a ++ b) = .error (.io cause)) ∧
      ∀ t', readWith reader b = .ok t' →
        readWith reader (a ++ b) = .ok ⟨t.tasks ++ t'.tasks, t.events ++ t'.events⟩) ∧
    (∀ line, Skipped line →
      readWith reader (a ++ line) = readWith reader a ∧
      readWith reader (a ++ (line ++ 0x0A :: b)) =
        (readWith reader a).bind fun t => ((readWith reader b).mapError (.below (a.count 0x0A + 1))).map t.append) ∧
    (∀ line, 0x0A ∉ line → ¬ Skipped line → readWith reader (line ++ [0x0A]) =
      match Text.Utf8.decode? line with
      | none => .error (.io .notUtf8)
      | some s =>
        match reader (Text.trimChars s.toList) >>= Record.checked with
        | .ok record => .ok (ofRecords [some record])
        | .error cause => .error (.trace 1 cause)) ∧
    ∀ content trace, readWith reader content = .ok trace →
      (∀ e ∈ trace.events, e.unit.toNat < 4096) ∧ ∀ d ∈ trace.tasks, d.pid ≠ 0 := by
  have hab : readWith reader (a ++ b) = _ := read_append ha b
  refine ⟨fun e he => ?_, fun t ht => ⟨fun line cause hb => ?_, fun cause hb => ?_, fun t' hb => ?_⟩,
    fun line hline => ⟨read_append_of_empty ha (read_of_skipped hline), read_append_skipped ha hline b⟩,
    fun line hnewline hline => read_concat_of_record hnewline hline,
    fun content trace h => ⟨unit_lt h, pid_ne_zero h⟩⟩
  · rw [hab, he]
    rfl
  · rw [hab, ht, hb, Nat.add_comm]
    rfl
  · rw [hab, ht, hb]
    rfl
  · rw [hab, ht, hb]
    rfl

/-- The second part fails in its third line, after a comment and a blank line; the first part has two lines. -/
theorem read_line_by_line_of_late_failure :
    let a := Text.Utf8.encode "[\"fault\",0,5]\n\n"
    let b := Text.Utf8.encode "  # more\n \t\n[\"task\",0]\n"
    Text.Ended 0x0A a ∧ read a = .ok ⟨[], [.fault 0 5]⟩ ∧ read b = .error (.trace 3 .idleTask) ∧
      read (a ++ b) = .error (.trace 5 .idleTask) := by
  intro a b
  have hended : Text.Ended 0x0A a := .inr ⟨Text.Utf8.encode "[\"fault\",0,5]\n", by decide⟩
  have ha : read a = .ok ⟨[], [.fault 0 5]⟩ := read_eq_ok (by decide +kernel)
  have hb : read b = .error (.trace 3 .idleTask) := by with_unfolding_all rfl
  have hlines : a.count 0x0A = 2 := by decide
  obtain ⟨-, hjoined, -⟩ := read_line_by_line Record.read hended b
  have hab := (hjoined _ ha).1 3 .idleTask hb
  rw [hlines] at hab
  exact ⟨hended, ha, hb, hab⟩

end Trace
end SchedLedger
