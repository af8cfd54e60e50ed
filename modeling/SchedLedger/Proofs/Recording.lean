import SchedLedger.Proofs.LineByLine
import SchedLedger.Proofs.RecordFields
import SchedLedger.Proofs.SpelledRecords
import SchedLedger.Proofs.Utf8

/-! Recordings. Whoever writes records down, each on a line of its own and with lines that are skipped anywhere
between them, has exactly these records read back, in their order. How the line of a record is spelled is left to
the writer: the order of the fields, white space, escapes in texts, and whether a task names what it does not
have. -/

namespace SchedLedger

open Json

namespace Record

variable {r : Record}

/-- The kind and the fields of a record in brackets. The kind stands anywhere among the fields. -/
inductive Spells (r : Record) : List Char → Prop
  | object {before after : List (String × Value)} {cs : List Char} (hfields : Makes (before ++ after) r)
    (h : SpellsItems SpellsMember (before ++ ("kind", .text r.kind.name) :: after) cs) :
    Spells r ('\x7b' :: cs ++ ['\x7d'])

theorem read_of_spells {cs : List Char} (h : Spells r cs) : read cs = .ok r := by
  rcases h with ⟨hfields, hmembers⟩
  have hobject := readObject_of_spells hmembers hfields.name_ne_kind []
  rw [ofMembers_of_makes hfields] at hobject
  have hopen : ∀ cs, skipBlank ('\x7b' :: cs) = '\x7b' :: cs := fun cs =>
    List.dropWhile_cons_of_neg (by decide)
  simp only [read, List.cons_append, hopen, hobject]
  rfl

theorem checked_of_fit (h : r.Fit) : r.checked = .ok r := by
  rcases r with d | e
  · exact if_neg h
  · exact if_neg (Nat.not_le.2 h)

/-! Every record can be spelled, in any order of its fields. -/

theorem exists_spells_entry {m : String × Value} (hm : m ∈ r.entries) :
    ∃ cs, Json.Spells m.2 cs ∧ Printable cs := by
  have hword32 : ∀ n : UInt32, ∃ cs, Json.Spells (.integer n.toNat) cs ∧ Printable cs := fun n =>
    exists_spells_integer (Nat.lt_trans n.toNat_lt_size (by decide))
  have hword64 : ∀ n : UInt64, ∃ cs, Json.Spells (.integer n.toNat) cs ∧ Printable cs := fun n =>
    exists_spells_integer n.toNat_lt_size
  rcases r with ⟨pid, comm, groups, size⟩ | ⟨unit, ts, prev, next⟩ | ⟨unit, pid⟩ <;>
    simp only [entries, List.mem_cons, List.not_mem_nil, or_false] at hm
  · rcases hm with rfl | rfl | rfl | rfl
    · exact hword32 pid
    · exact exists_spells_text comm
    · rcases groups with _ | path
      · exact exists_spells_null
      · exact exists_spells_texts path
    · rcases size with _ | bytes
      · exact exists_spells_null
      · exact hword64 bytes
  · rcases hm with rfl | rfl | rfl | rfl
    · exact hword32 unit
    · exact hword64 ts
    · exact hword32 prev
    · exact hword32 next
  · rcases hm with rfl | rfl
    · exact hword32 unit
    · exact hword32 pid

theorem exists_spellsMember {name : String} {v : Value} (h : ∃ cs, Json.Spells v cs ∧ Printable cs) :
    ∃ cs, SpellsMember (name, v) cs ∧ Printable cs := by
  obtain ⟨cs, hcs, hprintable⟩ := h
  have hname := spellsText_stringText name
  refine ⟨_, .pair hname (List.forall_mem_nil _) (List.forall_mem_nil _) hcs, ?_⟩
  simp [hname.printable, hprintable]

theorem exists_spells {before after : List (String × Value)} (h : Makes (before ++ after) r) :
    ∃ cs, Spells r cs ∧ Printable cs := by
  have hmember : ∀ m ∈ before ++ ("kind", .text r.kind.name) :: after, ∃ cs, SpellsMember m cs ∧ Printable cs := by
    intro m hm
    rw [List.mem_append, List.mem_cons, or_left_comm, ← List.mem_append] at hm
    rcases hm with rfl | hm
    · exact exists_spellsMember (exists_spells_text _)
    · exact exists_spellsMember (exists_spells_entry (h.said m hm))
  obtain ⟨cs, hcs, hprintable⟩ := exists_spellsItems (by simp) hmember
  exact ⟨_, .object h hcs, by simp [hprintable]⟩

theorem makes_entries (r : Record) : Makes r.entries r where
  said _ hm := hm
  once := (names_entries r ▸ fields_nodup r.kind : (r.entries.map Prod.fst).Nodup).of_map _
  enough _ hm hnot := absurd hm hnot

end Record

namespace Trace

/-- White space at the ends of a line. -/
def Margin (cs : List Char) : Prop :=
  ∀ c ∈ cs, Text.isBlank c = true

theorem trimChars_margins {left right : List Char} (hleft : Margin left) (hright : Margin right) {c d : Char}
    (hc : Text.isBlank c = false) (hd : Text.isBlank d = false) (cs : List Char) :
    Text.trimChars (left ++ (c :: cs ++ [d]) ++ right) = c :: cs ++ [d] := by
  have hright : ∀ c ∈ right.reverse, Text.isBlank c = true := fun c hc => hright c (List.mem_reverse.1 hc)
  rw [Text.trimChars, Text.trimStartChars, List.append_assoc, List.dropWhile_append_of_pos hleft, List.cons_append,
    List.cons_append, List.dropWhile_cons_of_neg (by simp [hc]), trimEndChars_cons hc, Text.trimEndChars,
    List.reverse_append, List.dropWhile_append_of_pos hright, List.reverse_append, List.reverse_singleton,
    List.singleton_append, List.dropWhile_cons_of_neg (by simp [hd]), List.reverse_cons, List.reverse_reverse]

/-- A line that is skipped, or the line of a record, with white space at its ends. -/
inductive Line : Option Record → Bytes → Prop
  | skipped {line : Bytes} (h : Skipped line) : Line none line
  | record {r : Record} {left cs right : List Char} (hleft : Margin left) (h : r.Spells cs) (hright : Margin right)
    (hnewline : '\n' ∉ left ++ cs ++ right) :
    Line (some r) (Text.Utf8.encode (String.ofList (left ++ cs ++ right)))

/-- Lines one after another, with the records that they hold. A newline after the last of them makes an empty line
the last one. -/
inductive Recording : List Record → Bytes → Prop
  | last {found : Option Record} {line : Bytes} (h : Line found line) : Recording found.toList line
  | more {found : Option Record} {line : Bytes} {records : List Record} {content : Bytes} (h : Line found line)
    (hmore : Recording records content) : Recording (found.toList ++ records) (line ++ 0x0A :: content)

variable {found : Option Record} {line : Bytes}

theorem Line.newline_notMem (h : Line found line) : 0x0A ∉ line := by
  rcases h with h | ⟨_, _, _, hnewline⟩
  · exact h.1
  · refine Text.Utf8.newline_notMem_encode ?_
    rwa [String.toList_ofList]

theorem readLine_of_line (h : Line found line) (hfit : ∀ r ∈ found.toList, r.Fit) (number : Nat) :
    readLine Record.read number line = .ok found := by
  rcases h with h | ⟨hleft, h, hright, hnewline⟩
  · exact readLine_of_skipped h number
  · have hread := Record.read_of_spells h
    have hchecked := Record.checked_of_fit (hfit _ List.mem_cons_self)
    rcases h with ⟨hfields, h⟩
    simp only [readLine, Text.Utf8.decode?_encode, String.toList_ofList]
    rw [trimChars_margins hleft hright (by decide) (by decide), hread]
    simp [isVoid, hchecked, bind, Except.bind]

theorem skipped_nil : Skipped [] :=
  ⟨List.not_mem_nil, "", by simp [Text.Utf8.decode?, Text.Utf8.pieces], by simp⟩

theorem ofRecords_found (found : Option Record) : ofRecords [found] = ofRecords (found.toList.map some) := by
  rcases found with _ | r <;> rfl

theorem read_concat_of_line (h : Line found line) (hfit : ∀ r ∈ found.toList, r.Fit) :
    readWith Record.read (line ++ [0x0A]) = .ok (ofRecords (found.toList.map some)) := by
  rw [read_concat h.newline_notMem, readLine_of_line h hfit, ← ofRecords_found]
  rfl

theorem read_of_line (h : Line found line) (hfit : ∀ r ∈ found.toList, r.Fit) :
    readWith Record.read line = .ok (ofRecords (found.toList.map some)) := by
  have hline := readLine_of_line h hfit 1
  -- a text without characters has no line at all, which is as good as an empty one
  by_cases hempty : line = []
  · rw [hempty] at hline ⊢
    cases hline.symm.trans (readLine_of_skipped skipped_nil 1)
    rfl
  · rw [readWith, Text.lines_of_notMem h.newline_notMem hempty, readLines_cons, hline, ← ofRecords_found]
    rfl

theorem read_of_recording {records : List Record} {content : Bytes} (h : Recording records content)
    (hfit : ∀ r ∈ records, r.Fit) : readWith Record.read content = .ok (ofRecords (records.map some)) := by
  induction h with
  | last h => exact read_of_line h hfit
  | @more found line records content h hmore ih =>
    have hline := read_concat_of_line h fun r hr => hfit r (List.mem_append_left _ hr)
    have hcontent := ih fun r hr => hfit r (List.mem_append_right _ hr)
    have hended : Text.Ended 0x0A (line ++ [0x0A]) := .inr ⟨line, rfl⟩
    have hsplit : line ++ 0x0A :: content = line ++ [0x0A] ++ content := by rw [List.append_assoc]; rfl
    rw [hsplit, read_append hended, hline, hcontent, List.map_append, ofRecords_append]
    rfl

theorem exists_line (r : Record) : ∃ line, Line (some r) line := by
  have hmakes : Record.Makes ([] ++ r.entries) r := Record.makes_entries r
  obtain ⟨cs, hcs, hprintable⟩ := Record.exists_spells hmakes
  refine ⟨_, .record (List.forall_mem_nil _) hcs (List.forall_mem_nil _) ?_⟩
  rw [List.nil_append, List.append_nil]
  exact hprintable.newline_notMem

theorem exists_recording (records : List Record) : ∃ content, Recording records content := by
  induction records with
  | nil => exact ⟨[], .last (.skipped skipped_nil)⟩
  | cons r records ih =>
    obtain ⟨line, hline⟩ := exists_line r
    obtain ⟨content, hcontent⟩ := ih
    exact ⟨line ++ 0x0A :: content, .more hline hcontent⟩

/-- Every sequence of records that a trace may hold can be recorded, and however it is recorded, reading yields its
tasks and its events, each in their order, and nothing else. -/
theorem read_recording {records : List Record} (hfit : ∀ r ∈ records, r.Fit) :
    (∃ content, Recording records content) ∧
      ∀ content, Recording records content →
        read content = .ok ⟨records.filterMap (task? ∘ some), records.filterMap (event? ∘ some)⟩ := by
  refine ⟨exists_recording records, fun content h => ?_⟩
  rw [read, read_of_recording h hfit, ofRecords, List.filterMap_map, List.filterMap_map]

/-- A comment, a fault whose kind stands between its fields on a line with a carriage return, and, after an empty
line, a task that neither has a group nor says so; its name is spelled with a number and ends in a comment sign. -/
theorem read_recording_of_reordered :
    let fault : Record := .event (.fault 0 5)
    let task : Record := .task ⟨7, "\x00#", none, none⟩
    let content := Text.Utf8.encode ("# two\n\t\x7b\"pid\":5,\"kind\":\"fault\",\"unit\":0\x7d\r\n\n" ++
      "\x7b\"comm\":\"\\u0000#\",\"pid\":7,\"kind\":\"task\"\x7d")
    (∀ r ∈ [fault, task], r.Fit) ∧ Recording [fault, task] content ∧
      read content = .ok ⟨[⟨7, "\x00#", none, none⟩], [.fault 0 5]⟩ := by
  intro fault task content
  have hfit : ∀ r ∈ [fault, task], r.Fit := by
    have hunit : (0 : UnitId).toNat < unitLimit := by decide
    have hpid : (7 : Pid) ≠ 0 := by decide
    intro r hr
    simp only [List.mem_cons, List.not_mem_nil, or_false] at hr
    rcases hr with rfl | rfl
    · exact hunit
    · exact hpid
  have hnone : Blank [] := List.forall_mem_nil _
  have hmember : ∀ {name : String} {v : Value} {cs : List Char}, Json.Spells v cs →
      Spaced SpellsMember (name, v) ([] ++ (stringText name ++ ([] ++ ':' :: ([] ++ cs))) ++ []) :=
    fun h => .around hnone (.pair (spellsText_stringText _) hnone hnone h) hnone
  have hfault : Line (some fault)
      (Text.Utf8.encode "\t\x7b\"pid\":5,\"kind\":\"fault\",\"unit\":0\x7d\r") := by
    have hmakes : Record.Makes ([("pid", .integer (5 : Nat))] ++ [("unit", .integer (0 : Nat))]) fault :=
      ⟨by simp [fault, Record.entries], by simp, by simp [fault, Record.entries]⟩
    have hspells := Record.Spells.object hmakes <|
      .more (hmember (.scalar (.integer (by decide)))) <|
      .more (hmember (.scalar (.text (spellsText_stringText _)))) <|
      .last (hmember (.scalar (.integer (by decide))))
    have hmargins : Margin ['\t'] ∧ Margin ['\r'] := by simp [Margin]; decide
    have hline := Line.record hmargins.1 hspells hmargins.2 (by decide +kernel)
    convert hline using 1
    decide +kernel
  have htask : Line (some task)
      (Text.Utf8.encode "\x7b\"comm\":\"\\u0000#\",\"pid\":7,\"kind\":\"task\"\x7d") := by
    have hnul : SpellsChar '\x00' ('\\' :: 'u' :: Text.hexFixed 4 0) := .unit (by decide) (spellsUnit_hexFixed 0)
    have hsign : SpellsChar '#' ['#'] := .plain (by decide) (by decide) (by decide)
    have hcomm : SpellsText "\x00#" _ := .quoted (.cons hnul (.cons hsign .nil))
    have hmakes : Record.Makes ([("comm", .text "\x00#"), ("pid", .integer (7 : Nat))] ++ []) task :=
      ⟨by simp [task, Record.entries], by simp, by simp [task, Record.entries, Record.unsaid]⟩
    have hspells := Record.Spells.object hmakes <|
      .more (hmember (.scalar (.text hcomm))) <|
      .more (hmember (.scalar (.integer (by decide)))) <|
      .last (hmember (.scalar (.text (spellsText_stringText _))))
    have hline := Line.record (List.forall_mem_nil _) hspells (List.forall_mem_nil _) (by decide +kernel)
    convert hline using 1
    decide +kernel
  have hcomment : Line none (Text.Utf8.encode "# two") := by
    have hfirst : "# two".toList.find? (!Text.isBlank ·) = some '#' := by decide
    refine .skipped ⟨by decide, "# two", Text.Utf8.decode?_encode _, ?_⟩
    rw [hfirst]
    rintro c ⟨rfl⟩
    rfl
  have hrecording : Recording [fault, task] content :=
    .more hcomment <| .more hfault <| .more (.skipped skipped_nil) <| .last htask
  exact ⟨hfit, hrecording, (read_recording hfit).2 content hrecording⟩

end Trace
end SchedLedger
