import SchedLedger.Trace.Record
import Mathlib.Data.List.Nodup

/-! Records by their fields. What a record says of each of its fields may be entered in any order, and makes up the
record again; what a task leaves unsaid is filled in as if it had been said. -/

namespace SchedLedger.Record

open Json (Value)

def kind : Record → Kind
  | .task _ => .task
  | .event (.switch ..) => .switch
  | .event (.fault ..) => .fault

/-- What a record says, field by field. -/
def entries : Record → List (String × Value)
  | .task d =>
    [("pid", .integer d.pid.toNat), ("comm", .text d.comm),
      ("cgroup", (d.groups.map fun path => .list (path.map .text)).getD .null),
      ("rss_bytes", (d.residentBytes.map fun bytes => .integer bytes.toNat).getD .null)]
  | .event (.switch unit ts prev next) =>
    [("unit", .integer unit.toNat), ("ts", .integer ts.toNat), ("prev", .integer prev.toNat),
      ("next", .integer next.toNat)]
  | .event (.fault unit pid) => [("unit", .integer unit.toNat), ("pid", .integer pid.toNat)]

/-- What a task need not say: an empty name, no membership, no size. -/
def unsaid : List (String × Value) :=
  [("comm", .text ""), ("cgroup", .null), ("rss_bytes", .null)]

theorem names_entries (r : Record) : r.entries.map Prod.fst = r.kind.fields := by
  match r with
  | .task _ => rfl
  | .event (.switch ..) => rfl
  | .event (.fault ..) => rfl

/-- Fields that make up a record: each is said once, in any order, and only what need not be said is left out. -/
structure Makes (ms : List (String × Value)) (r : Record) : Prop where
  said : ∀ m ∈ ms, m ∈ r.entries
  once : ms.Nodup
  enough : ∀ m ∈ r.entries, m ∉ ms → m ∈ unsaid

theorem fields_nodup (kind : Kind) : kind.fields.Nodup := by
  cases kind <;> decide

theorem Makes.names_nodup {ms : List (String × Value)} {r : Record} (h : Makes ms r) :
    (ms.map Prod.fst).Nodup := by
  have hnames : (r.entries.map Prod.fst).Nodup := names_entries r ▸ fields_nodup r.kind
  exact h.once.map_on fun m hm m' hm' => List.inj_on_of_nodup_map hnames (h.said m hm) (h.said m' hm')

/-! Values -/

theorem wordBelow_natCast {limit n : Nat} (h : n < limit) (expected : String) :
    wordBelow limit expected (.integer n) = .ok n :=
  if_pos ⟨Int.natCast_nonneg n, Int.ofNat_lt.2 h⟩

theorem word32_toNat (n : UInt32) : word32 (.integer n.toNat) = .ok n := by
  rw [word32, wordBelow_natCast n.toNat_lt_size, Except.map, UInt32.ofNat_toNat]

theorem word64_toNat (n : UInt64) : word64 (.integer n.toNat) = .ok n := by
  rw [word64, wordBelow_natCast n.toNat_lt_size, Except.map, UInt64.ofNat_toNat]

theorem textList_texts (path : List String) : textList (.list (path.map .text)) = .ok path := by
  rw [textList]
  induction path with
  | nil => rfl
  | cons name path ih =>
    rw [List.map_cons, List.mapM_cons, ih]
    rfl

theorem nullable_groups (groups : Option (List String)) :
    nullable textList ((groups.map fun path => .list (path.map .text)).getD .null) = .ok groups := by
  cases groups with
  | none => rfl
  | some path =>
    rw [Option.map_some, Option.getD_some, nullable, textList_texts]
    · rfl
    · simp

theorem nullable_size (size : Option UInt64) :
    nullable word64 ((size.map fun bytes => .integer bytes.toNat).getD .null) = .ok size := by
  cases size with
  | none => rfl
  | some bytes =>
    rw [Option.map_some, Option.getD_some, nullable, word64_toNat]
    · rfl
    · simp

/-! Drafts -/

def known {α : Type} (names : List String) (name : String) (a : α) : Option α :=
  if name ∈ names then some a else none

section Known

variable {α : Type} {name : String} {names : List String}

theorem known_of_mem (h : name ∈ names) (a : α) : known names name a = some a :=
  if_pos h

theorem known_of_notMem (h : name ∉ names) (a : α) : known names name a = none :=
  if_neg h

theorem known_cons_self (names : List String) (name : String) (a : α) : known (name :: names) name a = some a :=
  if_pos List.mem_cons_self

theorem known_cons_of_ne {other : String} (h : name ≠ other) (names : List String) (a : α) :
    known (other :: names) name a = known names name a := by
  simp [known, h]

/-- A field that is not known is filled in, which does no harm to one that has this value anyway. -/
theorem getD_known {a b : α} (h : name ∉ names → a = b) : (known names name a).getD b = a := by
  by_cases hname : name ∈ names
  · rw [known_of_mem hname, Option.getD_some]
  · rw [known_of_notMem hname, Option.getD_none, h hname]

end Known

/-- The draft of a record of which so many fields were read. -/
def drafted (names : List String) : Record → Draft
  | .task d =>
    { pid := known names "pid" d.pid, comm := known names "comm" d.comm, groups := known names "cgroup" d.groups,
      residentBytes := known names "rss_bytes" d.residentBytes }
  | .event (.switch unit ts prev next) =>
    { unit := known names "unit" unit, ts := known names "ts" ts, prev := known names "prev" prev,
      next := known names "next" next }
  | .event (.fault unit pid) => { unit := known names "unit" unit, pid := known names "pid" pid }

theorem drafted_nil (r : Record) : r.drafted [] = {} := by
  match r with
  | .task _ => rfl
  | .event (.switch ..) => rfl
  | .event (.fault ..) => rfl

theorem fill_none {α : Type} (name : String) (a : α) : fill name none (.ok a) = .ok (some a) :=
  rfl

theorem enter_entry {r : Record} {m : String × Value} (hm : m ∈ r.entries) {names : List String}
    (hnew : m.1 ∉ names) : Draft.enter r.kind (r.drafted names) m = .ok (r.drafted (m.1 :: names)) := by
  have hfield : m.1 ∈ r.kind.fields := names_entries r ▸ List.mem_map_of_mem hm
  rw [Draft.enter, if_neg (not_not_intro hfield)]
  match r with
  | .task d =>
    simp only [entries, List.mem_cons, List.not_mem_nil, or_false] at hm
    rcases hm with rfl | rfl | rfl | rfl <;>
      simp (disch := decide) only [drafted, known_of_notMem hnew, word32_toNat, text, nullable_groups,
        nullable_size, fill_none, Except.map, known_cons_self, known_cons_of_ne]
  | .event (.switch unit ts prev next) =>
    simp only [entries, List.mem_cons, List.not_mem_nil, or_false] at hm
    rcases hm with rfl | rfl | rfl | rfl <;>
      simp (disch := decide) only [drafted, known_of_notMem hnew, word32_toNat, word64_toNat, fill_none,
        Except.map, known_cons_self, known_cons_of_ne]
  | .event (.fault unit pid) =>
    simp only [entries, List.mem_cons, List.not_mem_nil, or_false] at hm
    rcases hm with rfl | rfl <;>
      simp (disch := decide) only [drafted, known_of_notMem hnew, word32_toNat, fill_none, Except.map,
        known_cons_self, known_cons_of_ne]

theorem foldlM_enter {r : Record} {ms : List (String × Value)} (hms : ∀ m ∈ ms, m ∈ r.entries)
    (hnodup : (ms.map Prod.fst).Nodup) {names : List String} (hnew : ∀ m ∈ ms, m.1 ∉ names) :
    ms.foldlM (Draft.enter r.kind) (r.drafted names) = .ok (r.drafted ((ms.map Prod.fst).reverse ++ names)) := by
  induction ms generalizing names with
  | nil => rfl
  | cons m ms ih =>
    rw [List.map_cons, List.nodup_cons] at hnodup
    -- the name just read is not met again, since no two of the fields share one
    have hrest : ∀ m' ∈ ms, m'.1 ∉ m.1 :: names := by
      intro m' hm' hmem
      rcases List.mem_cons.1 hmem with heq | hmem
      · exact hnodup.1 (heq ▸ List.mem_map_of_mem hm')
      · exact hnew m' (List.mem_cons_of_mem _ hm') hmem
    rw [List.foldlM_cons, enter_entry (hms m List.mem_cons_self) (hnew m List.mem_cons_self), List.map_cons,
      List.reverse_cons, List.append_assoc, List.singleton_append]
    exact ih (fun m' hm' => hms m' (List.mem_cons_of_mem _ hm')) hnodup.2 hrest

theorem need_of_mem {α : Type} {name : String} {names : List String} (h : name ∈ names)
    (absent : String → RecordError) (a : α) : need absent name (known names name a) = .ok a := by
  rw [known_of_mem h, need]

theorem eq_none_of_mem_unsaid {α : Type} {name : String} {f : α → Value} {o : Option α}
    (h : (name, (o.map f).getD .null) ∈ unsaid) (hname : name ≠ "comm") (hf : ∀ a, f a ≠ .null) : o = none := by
  cases o with
  | none => rfl
  | some a => simp [unsaid, hname, hf] at h

theorem finish_drafted {r : Record} {names : List String} (h : ∀ m ∈ r.entries, m.1 ∉ names → m ∈ unsaid)
    (absent : String → RecordError) : (r.drafted names).finish r.kind absent = .ok r := by
  have hneed : ∀ name ∈ r.kind.fields, name ∉ unsaid.map Prod.fst → name ∈ names := by
    intro name hfield hname
    rw [← names_entries] at hfield
    obtain ⟨m, hm, rfl⟩ := List.mem_map.1 hfield
    exact by_contra fun hnot => hname (List.mem_map_of_mem (h m hm hnot))
  match r with
  | .task d =>
    have hneed : ∀ name ∈ Kind.task.fields, name ∉ unsaid.map Prod.fst → name ∈ names := hneed
    have hpid := hneed "pid" (by decide) (by decide)
    -- what was not read is among what need not be said, and that is what the draft fills in
    have hcomm : "comm" ∉ names → d.comm = "" := fun hnot => by
      simpa [unsaid] using h ("comm", .text d.comm) (by simp [entries]) hnot
    have hgroups : "cgroup" ∉ names → d.groups = none := fun hnot => by
      have hnull := h ("cgroup", (d.groups.map fun path => Value.list (path.map .text)).getD .null)
        (by simp [entries]) hnot
      exact eq_none_of_mem_unsaid hnull (by decide) (fun _ => nofun)
    have hsize : "rss_bytes" ∉ names → d.residentBytes = none := fun hnot => by
      have hnull := h ("rss_bytes", (d.residentBytes.map fun bytes => Value.integer bytes.toNat).getD .null)
        (by simp [entries]) hnot
      exact eq_none_of_mem_unsaid hnull (by decide) (fun _ => nofun)
    simp only [Draft.finish, kind, drafted, need_of_mem hpid, getD_known hcomm, getD_known hgroups,
      getD_known hsize]
    rfl
  | .event (.switch unit ts prev next) =>
    have hneed : ∀ name ∈ Kind.switch.fields, name ∉ unsaid.map Prod.fst → name ∈ names := hneed
    have hunit := hneed "unit" (by decide) (by decide)
    have hts := hneed "ts" (by decide) (by decide)
    have hprev := hneed "prev" (by decide) (by decide)
    have hnext := hneed "next" (by decide) (by decide)
    simp only [Draft.finish, kind, drafted, need_of_mem hunit, need_of_mem hts, need_of_mem hprev,
      need_of_mem hnext]
    rfl
  | .event (.fault unit pid) =>
    have hneed : ∀ name ∈ Kind.fault.fields, name ∉ unsaid.map Prod.fst → name ∈ names := hneed
    have hunit := hneed "unit" (by decide) (by decide)
    have hpid := hneed "pid" (by decide) (by decide)
    simp only [Draft.finish, kind, drafted, need_of_mem hunit, need_of_mem hpid]
    rfl

theorem ofMembers_of_makes {r : Record} {ms : List (String × Value)} (h : Makes ms r) :
    ofMembers r.kind ms = .ok r := by
  have hfold := foldlM_enter h.said h.names_nodup fun _ _ => List.not_mem_nil
  have henough : ∀ m ∈ r.entries, m.1 ∉ (ms.map Prod.fst).reverse ++ [] → m ∈ unsaid := by
    intro m hm hname
    refine h.enough m hm fun hmem => hname ?_
    rw [List.append_nil, List.mem_reverse]
    exact List.mem_map_of_mem hmem
  rw [drafted_nil] at hfold
  rw [ofMembers, hfold]
  exact finish_drafted henough .missingField

/-- Nothing that a record says is called its kind. -/
theorem Makes.name_ne_kind {r : Record} {ms : List (String × Value)} (h : Makes ms r) :
    ∀ m ∈ ms, m.1 ≠ "kind" := by
  intro m hm hname
  have hfield : m.1 ∈ r.kind.fields := names_entries r ▸ List.mem_map_of_mem (h.said m hm)
  rw [hname] at hfield
  revert hfield
  cases r.kind <;> decide

end SchedLedger.Record
