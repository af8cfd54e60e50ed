import SchedLedger.Failure
import SchedLedger.Trace.Event

/-! Cutting the events of a trace into intervals of equal length, counted from the earliest switch. A
switch stands in the interval that holds its time. A fault has no time and follows the last switch of
its unit, or stands in the first interval before any. -/

namespace SchedLedger

structure Window where
  index : UInt64
  start : Span
  events : List Event
deriving DecidableEq, Repr

def groupStep {κ α : Type} [DecidableEq κ] (x : κ × α) (groups : List (κ × List α)) :
    List (κ × List α) :=
  match groups with
  | [] => [(x.1, [x.2])]
  | (k, xs) :: rest => if x.1 = k then (k, x.2 :: xs) :: rest else (x.1, [x.2]) :: (k, xs) :: rest

def groupByKey {α : Type} (xs : List (UInt64 × α)) : List (UInt64 × List α) :=
  (xs.mergeSort (·.1 ≤ ·.1)).foldr groupStep []

abbrev LastIndex := List (UnitId × UInt64)

namespace Window

/-- The interval of an event, and the intervals of the last switches after it. -/
def indexOf (origin step : UInt64) (last : LastIndex) : Event → UInt64 × LastIndex
  | .switch unit ts _ _ => ((ts - origin) / step, (unit, (ts - origin) / step) :: last.eraseP (·.1 = unit))
  | .fault unit _ => ((last.lookup unit).getD 0, last)

/-- One step of placing events; those placed so far stand backwards. -/
def placeStep (origin step : UInt64) (s : List (UInt64 × Event) × LastIndex) (e : Event) :
    List (UInt64 × Event) × LastIndex :=
  let found := indexOf origin step s.2 e
  ((found.1, e) :: s.1, found.2)

def placed (origin step : UInt64) (events : List Event) : List (UInt64 × Event) :=
  (events.foldl (placeStep origin step) ([], [])).1.reverse

def origin (events : List Event) : UInt64 :=
  (events.filterMap Event.time?).min?.getD 0

/-- Where an interval starts; a start beyond the last word is capped. -/
def startOf (step index : UInt64) : Span :=
  ⟨min (index.toNat * step.toNat) (UInt64.size - 1)⟩

def split (events : List Event) (interval : Span) : Except SettingsError (List Window) :=
  -- an interval longer than a word becomes the greatest word
  let step := interval.toWord
  if step = 0 then .error .emptyInterval
  else
    .ok <| (groupByKey (placed (origin events) step events)).map fun g =>
      ⟨g.1, startOf step g.1, g.2⟩

end Window
end SchedLedger
