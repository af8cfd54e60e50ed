import SchedLedger.Decimal.Shortest
import SchedLedger.Report.Build

/-! Reports as samples in the Prometheus text format: families by name, the samples of a family by
their labels. -/

namespace SchedLedger

/-- A value with labels. Labels stand in the order of their names. -/
structure Sample where
  labels : List (String × String)
  value : UInt64
deriving DecidableEq

structure Family where
  name : String
  help : String
  samples : List Sample
deriving DecidableEq

namespace Sample

def before (a b : Sample) : Bool :=
  go (a.labels.map Prod.snd) (b.labels.map Prod.snd)
where
  go : List String → List String → Bool
    | x :: xs, y :: ys => if x = y then go xs ys else x < y
    | _, _ => true

def labelText (s : String) : List Char :=
  s.toList.flatMap fun c =>
    if c == '\\' then ['\\', '\\'] else if c == '\n' then ['\\', 'n']
    else if c == '"' then ['\\', '"'] else [c]

/-- Counts are capped to the greatest signed word and carried as floats. -/
def number (n : UInt64) : Float :=
  Float.ofNat (min n.toNat (UInt64.size / 2 - 1))

def plainStyle : Decimal.FloatStyle :=
  ⟨-400, 400, false, false⟩

def numberText (x : Float) : List Char :=
  match Decimal.Shape.ofFloat x with
  | .finite _ m => Decimal.layout plainStyle m
  | _ => []

def text (name : String) (s : Sample) : List Char :=
  let labels := s.labels.map fun l => l.1.toList ++ '=' :: '"' :: labelText l.2 ++ ['"']
  name.toList ++ '\x7b' :: [','].intercalate labels ++ '\x7d' :: ' ' :: numberText (number s.value) ++ ['\n']

end Sample

namespace Family

/-- Put a sample into a family; it replaces one with the same labels. -/
def record (samples : List Sample) (s : Sample) : List Sample :=
  samples.filter (·.labels ≠ s.labels) ++ [s]

def gather (name help : String) (samples : List Sample) : Family :=
  ⟨name, help, (samples.foldl record []).mergeSort Sample.before⟩

/-- A family without samples is left out. -/
def text (f : Family) : List Char :=
  if f.samples.isEmpty then []
  else
    s!"# HELP {f.name} {f.help}\n# TYPE {f.name} gauge\n".toList ++ f.samples.flatMap (Sample.text f.name)

end Family

namespace Report

def cpuFamily (r : Report) : Family :=
  .gather "hotspot_cpu_time_ns" "CPU time charged to a process during the window" <|
    (r.rows.filter fun row => row.cpuNs > 0).map fun row =>
      ⟨[("cgroup", row.group), ("comm", row.comm), ("pid", toString row.pid)], row.cpuNs⟩

def faultFamily (r : Report) : Family :=
  .gather "hotspot_page_faults" "Page faults taken by a process during the window" <|
    (r.rows.filter fun row => row.faults > 0).map fun row =>
      ⟨[("cgroup", row.group), ("pid", toString row.pid)], row.faults⟩

def handoffFamily (r : Report) : Family :=
  .gather "hotspot_contention_total" "Times the victim was switched out in favour of the aggressor" <|
    r.handoffs.map fun c =>
      ⟨[("aggressor", toString c.aggressor), ("victim", toString c.victim)], c.count⟩

def droppedFamily (r : Report) : Family :=
  .gather "hotspot_table_dropped_inserts" "New keys rejected because the table was full" <|
    r.usage.map fun u => ⟨[("table", u.table)], u.dropped⟩

def entriesFamily (r : Report) : Family :=
  .gather "hotspot_table_entries" "Entries held by an aggregation table" <|
    r.usage.map fun u => ⟨[("table", u.table)], u.entries⟩

def families (r : Report) : List Family :=
  [r.handoffFamily, r.cpuFamily, r.faultFamily, r.droppedFamily, r.entriesFamily]

def exposition (r : Report) : String :=
  String.ofList (r.families.flatMap Family.text)

end Report
end SchedLedger
