import SchedLedger.Proofs.Tasks
import Mathlib.Data.List.Nodup

/-! What a task table knows of each task. Only the last declaration of a task counts: its groups are the path that
it gives, read from the end, whatever groups other declarations have put into the store, and a size is known just
if that declaration has one. -/

namespace SchedLedger

namespace Group

/-- The names from a group up, as they were declared. -/
def names : Group → List String
  | .root => []
  | .under parent name => name :: parent.names

theorem names_descend (group : Group) (path : List String) :
    (group.descend path).names = path.reverse ++ group.names := by
  induction path generalizing group with
  | nil => rfl
  | cons name path ih => rw [descend_cons, ih, names, List.reverse_cons, List.append_assoc, List.singleton_append]

theorem descend_root_eq_root_iff (path : List String) : Group.root.descend path = .root ↔ path = [] := by
  refine ⟨fun h => ?_, fun h => h ▸ rfl⟩
  have hnames := names_descend .root path
  rw [h] at hnames
  simpa [names] using hnames.symm

end Group

namespace TaskTable

structure Keyed (t : TaskTable) : Prop where
  nodup : (t.tasks.map Prod.fst).Nodup
  own : ∀ e ∈ t.tasks, e.2.pid = e.1

theorem Keyed.insert {t : TaskTable} (h : t.Keyed) (d : Declaration) : (t.insert d).Keyed := by
  constructor
  · refine List.nodup_cons.2 ⟨fun hmem => ?_, h.nodup.sublist (List.filter_sublist.map _)⟩
    obtain ⟨e, he, hpid⟩ := List.mem_map.1 hmem
    simpa [hpid] using (List.mem_filter.1 he).2
  · intro e he
    rcases List.mem_cons.1 he with rfl | he
    · rfl
    · exact h.own e (List.mem_filter.1 he).1

theorem keyed_ofDeclarations (ds : List Declaration) : (ofDeclarations ds).Keyed := by
  induction ds using List.reverseRecOn with
  | nil => exact ⟨.nil, fun _ h => nomatch h⟩
  | append_singleton ds d ih =>
    rw [ofDeclarations, List.foldl_append]
    exact ih.insert d

variable {t : TaskTable}

theorem Keyed.get?_eq_some_iff (h : t.Keyed) (pid : Pid) (task : DeclaredTask) :
    t.get? pid = some task ↔ (pid, task) ∈ t.tasks :=
  lookup_eq_some_iff_mem h.nodup

theorem Keyed.mem_residentSizes_iff (h : t.Keyed) (pid : Pid) (bytes : UInt64) :
    (pid, bytes) ∈ t.residentSizes ↔ ∃ task, t.get? pid = some task ∧ task.residentBytes = some bytes := by
  simp only [residentSizes, List.mem_filterMap, Option.map_eq_some_iff, Prod.mk.injEq]
  constructor
  · rintro ⟨e, he, found, hfound, hpid, rfl⟩
    rw [h.own e he] at hpid
    subst hpid
    exact ⟨e.2, (h.get?_eq_some_iff e.1 e.2).2 he, hfound⟩
  · rintro ⟨task, htask, hbytes⟩
    have he := (h.get?_eq_some_iff pid task).1 htask
    exact ⟨(pid, task), he, bytes, hbytes, h.own _ he, rfl⟩

theorem Keyed.nodup_residentSizes (h : t.Keyed) : (t.residentSizes.map Prod.fst).Nodup := by
  refine h.nodup.sublist (map_filterMap_sublist fun e he found hfound => ?_)
  obtain ⟨bytes, -, rfl⟩ := Option.map_eq_some_iff.1 hfound
  exact h.own e he

/-- A task other than the idle one is found as it was declared last, and not at all if it never was. Read from its
leaf up, its groups are the declared path from its end, empty names included; there is no membership without a path
and no group on an empty one. The known sizes are those of just the tasks whose last declaration has one. -/
theorem last_declaration_counts (ds : List Declaration) :
    (∀ pid, pid ≠ 0 →
      match declared? ds pid with
      | none => (ofDeclarations ds).get? pid = none ∧ (ofDeclarations ds).current? pid = none
      | some d =>
        ∃ task, (ofDeclarations ds).get? pid = some task ∧ (ofDeclarations ds).current? pid = some task ∧
          task.pid = pid ∧ task.comm = d.comm ∧ task.residentBytes = d.residentBytes ∧
          match d.groups with
          | none => task.membership = none
          | some path =>
            ∃ leaf, task.membership = some leaf ∧ leaf.names = path.reverse ∧
              leaf.chain = path.reverse.map Group.name? ∧ (leaf = .root ↔ path = [])) ∧
    (∀ pid bytes, (pid, bytes) ∈ (ofDeclarations ds).residentSizes ↔
      ∃ d, declared? ds pid = some d ∧ d.residentBytes = some bytes) ∧
    ((ofDeclarations ds).residentSizes.map Prod.fst).Nodup := by
  have hkeyed := keyed_ofDeclarations ds
  refine ⟨fun pid hpid => ?_, fun pid bytes => ?_, hkeyed.nodup_residentSizes⟩
  · have hget := (declares_ofDeclarations ds).lookup pid
    have hcurrent := current?_ofDeclarations ds hpid
    cases hd : declared? ds pid with
    | none =>
      rw [hd] at hget hcurrent
      exact ⟨hget, hcurrent⟩
    | some d =>
      rw [hd] at hget hcurrent
      -- the declaration that counts for a number is one of that number
      have hown : d.pid = pid := by
        have hmem := List.mem_of_getLast? hd
        simpa using (List.mem_filter.1 hmem).2
      refine ⟨d.task, hget, hcurrent, hown, rfl, rfl, ?_⟩
      cases hgroups : d.groups with
      | none => simp [Declaration.task, hgroups]
      | some path =>
        have hnames : (Group.root.descend path).names = path.reverse := by
          rw [Group.names_descend, Group.names, List.append_nil]
        refine ⟨Group.root.descend path, by simp [Declaration.task, hgroups], hnames, ?_,
          Group.descend_root_eq_root_iff path⟩
        rw [Group.chain_descend, Group.chain, List.append_nil]
  · rw [hkeyed.mem_residentSizes_iff, (declares_ofDeclarations ds).lookup]
    constructor
    · rintro ⟨task, htask, hbytes⟩
      obtain ⟨d, hd, rfl⟩ := Option.map_eq_some_iff.1 htask
      exact ⟨d, hd, hbytes⟩
    · rintro ⟨d, hd, hbytes⟩
      exact ⟨d.task, by rw [hd]; rfl, hbytes⟩

/-- Task 1 moves from one group to another one below it, past a group without a name; another task has entered both
before, and a third is in no group at all. -/
theorem last_declaration_counts_of_shared_groups :
    let ds : List Declaration :=
      [⟨1, "old", some ["a", "b"], some 5⟩, ⟨2, "other", some ["a", "", "b"], none⟩, ⟨3, "third", some [], some 7⟩,
        ⟨1, "new", some ["a", "", "b", "c"], none⟩]
    (∃ task leaf, (ofDeclarations ds).current? 1 = some task ∧ task.comm = "new" ∧
      task.membership = some leaf ∧ leaf.names = ["c", "b", "", "a"] ∧
      leaf.chain = [some [0x63], some [0x62], none, some [0x61]]) ∧
    (∃ task, (ofDeclarations ds).current? 3 = some task ∧ task.membership = some .root) ∧
    (ofDeclarations ds).current? 4 = none ∧ (3, 7) ∈ (ofDeclarations ds).residentSizes ∧
    ¬ ∃ bytes, (1, bytes) ∈ (ofDeclarations ds).residentSizes := by
  intro ds
  obtain ⟨hfound, hsizes, -⟩ := last_declaration_counts ds
  have hone := hfound 1 (by decide)
  have hthree := hfound 3 (by decide)
  have hfour := hfound 4 (by decide)
  obtain ⟨one, -, hcurrent, -, hcomm, -, leaf, hleaf, hnames, hchain, -⟩ := hone
  obtain ⟨three, -, hthird, -, -, -, group, hgroup, -, -, hroot⟩ := hthree
  refine ⟨⟨one, leaf, hcurrent, hcomm, hleaf, hnames, hchain⟩, ⟨three, hthird, ?_⟩, hfour.2,
    (hsizes 3 7).2 ⟨_, rfl, rfl⟩, ?_⟩
  · rw [hgroup, hroot.2 rfl]
  · rintro ⟨bytes, hbytes⟩
    obtain ⟨d, hd, hnone⟩ := (hsizes 1 bytes).1 hbytes
    cases hd
    cases hnone

end TaskTable
end SchedLedger
