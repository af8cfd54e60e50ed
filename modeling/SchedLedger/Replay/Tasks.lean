import SchedLedger.Account.Context
import SchedLedger.Host.Procs
import SchedLedger.Trace.Event

/-! The declared tasks of a trace. A later declaration of a task replaces the earlier one. Tasks whose
paths start alike share the groups of that part. -/

namespace SchedLedger

/-- A group with its parents; `root` stands above every named group and is none itself. -/
inductive Group
  | root
  | under (parent : Group) (name : String)
deriving DecidableEq, Repr

/-- The names from a group up; an empty name counts as none. -/
def Group.chain : Group → GroupChain
  | .root => []
  | .under parent name =>
    (if name = "" then none else some (Text.Utf8.encode name)) :: parent.chain

abbrev GroupStore := List (List String × Group)

def GroupStore.enter (store : GroupStore) (path : List String) (parent : Group) (name : String) :
    Group × GroupStore :=
  match store.lookup (path ++ [name]) with
  | some group => (group, store)
  | none => (.under parent name, (path ++ [name], .under parent name) :: store)

def GroupStore.walk (store : GroupStore) (path : List String) (group : Group) :
    List String → Group × GroupStore
  | [] => (group, store)
  | name :: names =>
    let next := store.enter path group name
    GroupStore.walk next.2 (path ++ [name]) next.1 names

structure DeclaredTask where
  pid : Pid
  comm : String
  membership : Option Group
  residentBytes : Option UInt64
deriving DecidableEq, Repr

structure TaskTable where
  tasks : List (Pid × DeclaredTask)
  groups : GroupStore
deriving DecidableEq

namespace TaskTable

def empty : TaskTable :=
  ⟨[], []⟩

instance : Inhabited TaskTable := ⟨empty⟩

def join (store : GroupStore) : Option (List String) → Option Group × GroupStore
  | none => (none, store)
  | some path => let found := store.walk [] .root path; (some found.1, found.2)

def insert (t : TaskTable) (d : Declaration) : TaskTable :=
  let joined := join t.groups d.groups
  ⟨(d.pid, ⟨d.pid, d.comm, joined.1, d.residentBytes⟩) :: t.tasks.filter (·.1 ≠ d.pid), joined.2⟩

def ofDeclarations (ds : List Declaration) : TaskTable :=
  ds.foldl insert empty

def get? (t : TaskTable) (pid : Pid) : Option DeclaredTask :=
  t.tasks.lookup pid

def size (t : TaskTable) : Nat :=
  t.tasks.length

def isEmpty (t : TaskTable) : Bool :=
  t.tasks.isEmpty

/-- The task that an event of `pid` finds: none for the idle task, even if it was declared. -/
def current? (t : TaskTable) (pid : Pid) : Option DeclaredTask :=
  if pid = 0 then none else t.get? pid

def context (t : TaskTable) (pid : Pid) : Context :=
  .named pid ((t.current? pid).map fun task => Text.Utf8.encode task.comm)
    ((t.current? pid).map fun task => ⟨task.membership.map Group.chain⟩)

def residentSizes (t : TaskTable) : List (Pid × UInt64) :=
  t.tasks.filterMap fun e => e.2.residentBytes.map fun bytes => (e.2.pid, bytes)

def inquire (t : TaskTable) (procs : Procs) (pid : Pid) (cache : NameCache) : Inquiry (String × NameCache) :=
  match t.get? pid with
  | some task => if task.comm = "" then procs.inquire pid cache else .done (task.comm, cache)
  | none => procs.inquire pid cache

def nameOf (t : TaskTable) (procs : Procs) (files : Files) (pid : Pid) (cache : NameCache) :
    String × NameCache :=
  (t.inquire procs pid cache).result files

end TaskTable
end SchedLedger
