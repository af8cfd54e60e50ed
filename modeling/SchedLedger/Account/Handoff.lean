import SchedLedger.Account.Slots

/-! Directed handoffs. The victim is the entity switched out, the aggressor the one switched in. -/

namespace SchedLedger

/-- An ordered pair of entities in one word, the victim in its upper half. -/
structure Handoff where
  raw : UInt64
deriving DecidableEq, Repr

namespace Handoff

def ofPair? (victim aggressor : Pid) : Option Handoff :=
  if victim = 0 ∨ aggressor = 0 then none
  else some ⟨(victim.toUInt64 <<< 32) ||| aggressor.toUInt64⟩

def victim (h : Handoff) : Pid :=
  (h.raw >>> 32).toUInt32

def aggressor (h : Handoff) : Pid :=
  (h.raw &&& 0xFFFFFFFF).toUInt32

end Handoff
end SchedLedger
