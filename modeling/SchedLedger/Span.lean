/-! Lengths of time, counted in nanoseconds. -/

namespace SchedLedger

structure Span where
  nanos : Nat
deriving DecidableEq, Inhabited, Repr

namespace Span

def perSecond : Nat := 1000000000

def ofMillis (n : UInt64) : Span :=
  ⟨n.toNat * 1000000⟩

/-- The length in seconds: whole seconds and the rest of a second are rounded on their own. -/
def seconds (s : Span) : Float :=
  Float.ofNat (s.nanos / perSecond) + Float.ofNat (s.nanos % perSecond) / Float.ofNat perSecond

/-- The divisor of a rate per second; an empty span counts as one second. -/
def rateSeconds (s : Span) : Float :=
  if s.seconds > 0.0 then s.seconds else 1.0

def toWord (s : Span) : UInt64 :=
  .ofNat (min s.nanos (UInt64.size - 1))

end Span
end SchedLedger
