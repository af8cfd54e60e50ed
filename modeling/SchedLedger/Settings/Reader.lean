import SchedLedger.Settings.Basic
import SchedLedger.Yaml.Node
import SchedLedger.Yaml.Plain

/-! Settings in YAML. Every field may be left out; a field given twice or of the wrong form spoils the
whole, and fields that are not known are passed over. -/

namespace SchedLedger.Settings

open Yaml (Document Node ScalarKind)

def text? (d : Document) (n : Node) : Option String :=
  match d.resolve n with
  | some (.scalar _ _ text) => some text
  | _ => none

/-- The text of a scalar that may stand for a value of a standard type: a plain one, or a literal block
with the tag of the type. -/
def typed? (type : String) (d : Document) (n : Node) : Option String :=
  match d.resolve n with
  | some (.scalar _ .plain text) => some text
  | some (.scalar tag .literal text) => if tag = some ("tag:yaml.org,2002:" ++ type) then some text else none
  | _ => none

def word? (d : Document) (n : Node) : Option UInt64 :=
  ((typed? "int" d n).bind fun s => Yaml.unsigned? (UInt64.size - 1) s.toList).map UInt64.ofNat

def truth? (d : Document) (n : Node) : Option Bool :=
  (typed? "bool" d n).bind Yaml.bool?

/-- A value that may be null. A tag keeps a plain scalar from being null, except the tag of null, which
asks for it. -/
def nullable? {α : Type} (read : Document → Node → Option α) (d : Document) (n : Node) :
    Option (Option α) :=
  match d.resolve n with
  | some (.scalar none .plain text) =>
    if text = "" ∨ Yaml.isNull text then some none else (read d n).map some
  | some (.scalar (some "tag:yaml.org,2002:null") .plain text) =>
    if Yaml.isNull text then some none else none
  | _ => (read d n).map some

/-- The pairs of a mapping; an empty plain scalar counts as a mapping without pairs. -/
def pairs? (d : Document) (n : Node) : Option (List (Node × Node)) :=
  match d.resolve n with
  | some (.mapping pairs) => some pairs
  | some (.scalar _ .plain "") => some []
  | _ => none

def addField (d : Document) (known : List String) (found : List (String × Node)) (p : Node × Node) :
    Option (List (String × Node)) := do
  let name ← text? d p.1
  if name ∉ known then return found
  if (found.lookup name).isSome then none
  return found ++ [(name, p.2)]

def fields? (d : Document) (known : List String) (n : Node) : Option (List (String × Node)) := do
  (← pairs? d n).foldlM (addField d known) []

def field {α : Type} (fields : List (String × Node)) (name : String) (standard : α)
    (read : Node → Option α) : Option α :=
  match fields.lookup name with
  | some n => read n
  | none => some standard

def capacities? (d : Document) (n : Node) : Option Capacities := do
  let s := Capacities.reference
  let fs ← fields? d ["pid_stats", "contention", "faults"] n
  return ⟨← field fs "pid_stats" s.cpu (word? d), ← field fs "contention" s.handoffs (word? d),
    ← field fs "faults" s.faults (word? d)⟩

def report? (d : Document) (n : Node) : Option ReportSettings := do
  let s := ReportSettings.standard
  let fs ← fields? d ["top_k", "hide_kernel", "cgroup_filter", "total_memory_bytes"] n
  return ⟨← field fs "top_k" s.topK (word? d), ← field fs "hide_kernel" s.hideKernel (truth? d),
    ← field fs "cgroup_filter" s.groupFilter (nullable? text? d),
    ← field fs "total_memory_bytes" s.totalMemory (nullable? word? d)⟩

def ofDocument? (d : Document) : Option Settings := do
  let s := Settings.standard
  let fs ← fields? d ["capacities", "report", "procfs_root"] d.root
  return ⟨← field fs "capacities" s.capacities (capacities? d), ← field fs "report" s.report (report? d),
    ← field fs "procfs_root" s.procsRoot (text? d)⟩

def parse (text : String) : Except String Settings :=
  match Document.read text with
  | none => .error "this is no YAML document"
  | some none => .ok standard
  | some (some d) =>
    match ofDocument? d with
    | some s => .ok s
    | none => .error "these are no settings"

def readWith (reader : String → Except String Settings) (text : String) : Except SettingsError Settings :=
  match reader text with
  | .ok s => s.accept
  | .error reason => .error (.invalidYaml reason)

def ofYaml (text : String) : Except SettingsError Settings :=
  readWith parse text

def load (files : Files) (path : Option String) : Except SettingsError Settings :=
  match path with
  | none => .ok standard
  | some path =>
    match files.readText path with
    | .ok text => ofYaml text
    | .error cause => .error (.unreadable path cause)

end SchedLedger.Settings
