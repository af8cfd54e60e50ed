import SchedLedger.Replay.Tasks
import SchedLedger.Proofs.Resolver
import Mathlib.Data.List.Induction

/-! Declared tasks by their declarations. However many tasks share the groups of a store, the group at a path
has the names of that path above it; so what a task table knows of a task is what its last declaration says. -/

namespace SchedLedger

namespace Group

/-- The group at the end of a path, counted from this one. -/
def descend (group : Group) (names : List String) : Group :=
  names.foldl .under group

theorem descend_cons (group : Group) (name : String) (names : List String) :
    group.descend (name :: names) = (group.under name).descend names := rfl

theorem descend_concat (group : Group) (names : List String) (name : String) :
    group.descend (names ++ [name]) = (group.descend names).under name := by
  rw [descend, List.foldl_append]
  rfl

def name? (name : String) : Option Bytes :=
  if name = "" then none else some (Text.Utf8.encode name)

theorem chain_descend (group : Group) (names : List String) :
    (group.descend names).chain = names.reverse.map name? ++ group.chain := by
  induction names generalizing group with
  | nil => rfl
  | cons name names ih =>
    rw [descend_cons, ih, chain, List.reverse_cons, List.map_append, List.append_assoc]
    rfl

/-- An empty name is not usable anyway. -/
theorem filter_name? (name : String) :
    (name? name).filter usable = (some (Text.Utf8.encode name)).filter usable := by
  unfold name?
  split
  · next h =>
    subst h
    rfl
  · rfl

theorem findSome?_name? (names : List String) :
    (names.map name?).findSome? (·.filter usable) = (names.map Text.Utf8.encode).find? usable := by
  induction names with
  | nil => rfl
  | cons name names ih =>
    rw [List.map_cons, List.map_cons, List.findSome?_cons, List.find?_cons, filter_name?,
      Option.filter_some, ih]
    cases usable (Text.Utf8.encode name) <;> rfl

end Group

namespace GroupStore

/-- Whatever group the store has at a path is the one at the end of that path. -/
def Sound (store : GroupStore) : Prop :=
  ∀ path group, store.lookup path = some group → group = Group.root.descend path

theorem Sound.nil : Sound [] :=
  fun _ _ h => nomatch h

theorem Sound.enter {store : GroupStore} (h : store.Sound) (path : List String) (name : String) :
    (store.enter path (Group.root.descend path) name).1 = Group.root.descend (path ++ [name]) ∧
      (store.enter path (Group.root.descend path) name).2.Sound := by
  unfold GroupStore.enter
  split
  · next group hfound => exact ⟨h _ _ hfound, h⟩
  · refine ⟨(Group.descend_concat ..).symm, fun other group hfound => ?_⟩
    rw [List.lookup_cons] at hfound
    split at hfound
    · next hother =>
      cases hfound
      rw [beq_iff_eq.1 hother, Group.descend_concat]
    · exact h other group hfound

theorem Sound.walk {store : GroupStore} (h : store.Sound) (path names : List String) :
    (store.walk path (Group.root.descend path) names).1 = Group.root.descend (path ++ names) ∧
      (store.walk path (Group.root.descend path) names).2.Sound := by
  induction names generalizing store path with
  | nil => exact ⟨by rw [List.append_nil]; rfl, h⟩
  | cons name names ih =>
    obtain ⟨hgroup, hsound⟩ := h.enter path name
    rw [GroupStore.walk, hgroup, List.append_cons path name names]
    exact ih hsound (path ++ [name])

end GroupStore

/-- The declaration that counts: the last one. -/
def declared? (ds : List Declaration) (pid : Pid) : Option Declaration :=
  (ds.filter (·.pid = pid)).getLast?

/-- The task that a declaration declares. -/
def Declaration.task (d : Declaration) : DeclaredTask :=
  ⟨d.pid, d.comm, d.groups.map Group.root.descend, d.residentBytes⟩

theorem map_filterMap_sublist {α β γ : Type} {pick : α → Option β} {key : β → γ} {place : α → γ} {xs : List α}
    (h : ∀ x ∈ xs, ∀ y, pick x = some y → key y = place x) :
    ((xs.filterMap pick).map key).Sublist (xs.map place) := by
  induction xs with
  | nil => exact .slnil
  | cons x xs ih =>
    rw [List.forall_mem_cons] at h
    cases hpick : pick x with
    | none =>
      rw [List.filterMap_cons_none hpick]
      exact (ih h.2).cons _
    | some y =>
      rw [List.filterMap_cons_some hpick, List.map_cons, List.map_cons, h.1 y hpick]
      exact (ih h.2).cons_cons _

theorem lookup_eq_some_iff_mem {α : Type} {entries : List (Pid × α)} (h : (entries.map Prod.fst).Nodup) {k : Pid}
    {v : α} : entries.lookup k = some v ↔ (k, v) ∈ entries := by
  rw [List.lookup_eq_some_iff]
  constructor
  · rintro ⟨before, after, hentries, -⟩
    rw [hentries]
    exact List.mem_append_right _ List.mem_cons_self
  · intro hmem
    obtain ⟨before, after, hentries⟩ := List.append_of_mem hmem
    rw [hentries, List.map_append, List.map_cons, List.nodup_append] at h
    refine ⟨before, after, hentries, fun e he => ?_⟩
    have hne := h.2.2 e.1 (List.mem_map_of_mem he) k List.mem_cons_self
    simpa using hne.symm

namespace TaskTable

theorem declared?_concat (ds : List Declaration) (d : Declaration) (pid : Pid) :
    declared? (ds ++ [d]) pid = if d.pid = pid then some d else declared? ds pid := by
  rw [declared?, List.filter_append]
  by_cases h : d.pid = pid <;> simp [declared?, h]

theorem lookup_filter_ne {k j : Pid} (h : j ≠ k) (tasks : List (Pid × DeclaredTask)) :
    (tasks.filter (·.1 ≠ k)).lookup j = tasks.lookup j := by
  induction tasks with
  | nil => rfl
  | cons e tasks ih =>
    rw [List.filter_cons]
    split
    · rw [List.lookup_cons, List.lookup_cons, ih]
    · next hk =>
      have hkey : e.1 = k := by simpa using hk
      rw [ih, List.lookup_cons, hkey, beq_eq_false_iff_ne.2 h]

theorem join_of_sound {store : GroupStore} (h : store.Sound) (groups : Option (List String)) :
    (join store groups).1 = groups.map Group.root.descend ∧ (join store groups).2.Sound := by
  cases groups with
  | none => exact ⟨rfl, h⟩
  | some path =>
    obtain ⟨hgroup, hsound⟩ := h.walk [] path
    exact ⟨congrArg some hgroup, hsound⟩

/-- The store is sound, and every task is as it was declared last. -/
structure Declares (t : TaskTable) (ds : List Declaration) : Prop where
  sound : t.groups.Sound
  lookup : ∀ pid, t.get? pid = (declared? ds pid).map Declaration.task

theorem Declares.insert {t : TaskTable} {ds : List Declaration} (h : t.Declares ds) (d : Declaration) :
    (t.insert d).Declares (ds ++ [d]) := by
  obtain ⟨hgroup, hsound⟩ := join_of_sound h.sound d.groups
  refine ⟨hsound, fun pid => ?_⟩
  rw [declared?_concat, get?, TaskTable.insert, List.lookup_cons]
  by_cases hpid : d.pid = pid
  · rw [if_pos hpid, hpid, beq_self_eq_true, hgroup, ← hpid]
    rfl
  · rw [if_neg hpid, beq_eq_false_iff_ne.2 (Ne.symm hpid), lookup_filter_ne (Ne.symm hpid)]
    exact h.lookup pid

theorem declares_ofDeclarations (ds : List Declaration) : (ofDeclarations ds).Declares ds := by
  induction ds using List.reverseRecOn with
  | nil => exact ⟨.nil, fun _ => rfl⟩
  | append_singleton ds d ih =>
    rw [ofDeclarations, List.foldl_append]
    exact ih.insert d

end TaskTable

def taskName (ds : List Declaration) (pid : Pid) : Bytes :=
  ((declared? ds pid).map fun d => Text.Utf8.encode d.comm).getD []

def groupPath (ds : List Declaration) (pid : Pid) : List String :=
  ((declared? ds pid).bind (·.groups)).getD []

/-- The name of the last group on the path of an entity, or of the one before if the last one's is not
usable, or else the sentinel. -/
def groupName (ds : List Declaration) (pid : Pid) : Bytes :=
  (((groupPath ds pid).reverse.take 2).map Text.Utf8.encode |>.find? usable).getD Padded.sentinel

namespace TaskTable

variable (ds : List Declaration) {pid : Pid}

theorem current?_ofDeclarations (h : pid ≠ 0) :
    (ofDeclarations ds).current? pid = (declared? ds pid).map Declaration.task := by
  rw [current?, if_neg h, (declares_ofDeclarations ds).lookup]

theorem copyComm_context (h : pid ≠ 0) (out : Comm) :
    ((ofDeclarations ds).context pid).copyComm out = .ofBytes (taskName ds pid) := by
  rw [context, current?_ofDeclarations ds h, taskName]
  cases declared? ds pid <;> rfl

theorem label_context (h : pid ≠ 0) :
    GroupChain.label (((ofDeclarations ds).context pid).chain?.getD []) = groupName ds pid := by
  have hchain : ((ofDeclarations ds).context pid).chain?.getD [] =
      (groupPath ds pid).reverse.map Group.name? := by
    rw [Context.chain?, context, Context.named, current?_ofDeclarations ds h, groupPath]
    cases hdeclared : declared? ds pid with
    | none => rfl
    | some d =>
      cases hgroups : d.groups with
      | none => simp [Declaration.task, hgroups]
      | some path => simp [Declaration.task, hgroups, Group.chain_descend, Group.chain]
  rw [hchain, GroupChain.label, ← List.map_take, Group.findSome?_name?, groupName]

end TaskTable

end SchedLedger
