import SchedLedger.Account.Ranking
import SchedLedger.Report.Row

/-! The orders in which a report lists its rows, and the choice of its focus. -/

namespace SchedLedger

/-- A number that orders floats: negative ones before positive ones, also among zeros, and what is no
number last. -/
def orderKey (x : Float) : Int :=
  let bits := x.toBits.toNat
  -- the sign is the first bit
  if bits < UInt64.size / 2 then bits else -((bits - UInt64.size / 2 : Nat) : Int) - 1

namespace Row

/-- The place of a row by its cost per fault. A cost of nothing by nothing comes first. -/
def costKey (r : Row) : Int :=
  if r.costUndefined then -((UInt64.size / 2 : Nat) : Int) else orderKey r.costPerFault

def costsLess (a b : Row) : Bool :=
  a.costKey < b.costKey ||
    (a.costKey == b.costKey && orderKey b.faultsPerSecond ≤ orderKey a.faultsPerSecond)

def score (r : Row) : Float :=
  Float.ofNat r.finding.severity * 1000.0 + r.cpuPercent

def isQuiet (r : Row) : Bool :=
  r.finding.severity == 0 && r.cpuPercent < 1.0 && r.faultsPerSecond < 1.0

end Row

def cpuSection (limit : UInt64) (rows : List Row) : List Row :=
  keepFirst limit (ranked Row.cpuNs (·.pid.toNat) rows)

def costSection (limit : UInt64) (rows : List Row) : List Row :=
  keepFirst limit ((rows.filter fun r => r.faults > 0 || r.cpuMs > 0.0).mergeSort Row.costsLess)

/-- The first row that no other one exceeds, going from the front; a later row replaces the choice
unless its value is at most that of the choice. -/
def bestBy (value : Row → Float) (best : Option Row) (r : Row) : Option Row :=
  match best with
  | none => some r
  | some b => if value r ≤ value b then some b else some r

/-- The busier of two rows, the first one unless the second is strictly busier. -/
def busier (best : Option Row) (r : Row) : Option Row :=
  match best with
  | none => some r
  | some b => if r.cpuPercent > b.cpuPercent then some r else some b

def focusRow (rows : List Row) : Option Row :=
  match (rows.filter fun r => !r.isQuiet).foldl (bestBy Row.score) none with
  | some r => some r
  | none => rows.foldl busier none

end SchedLedger
