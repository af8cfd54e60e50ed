/-! Tables of fixed capacity. Keys are admitted first come, first served: a present key can always
be updated, a new key is refused once the table is full, and refusals are only counted. -/

namespace SchedLedger

inductive Admission
  | inserted
  | updated
  | dropped
deriving DecidableEq, Repr

/-- Fill level of a table, and the refusals since its creation. -/
structure Usage where
  table : String
  entries : UInt64
  capacity : UInt64
  dropped : UInt64
deriving DecidableEq, Repr

/-- Entries stand in the order of their admission. Admission goes by the count `occupied`. -/
structure Table (κ ν : Type) where
  name : String
  capacity : UInt64
  entries : List (κ × ν)
  occupied : Nat
  dropped : UInt64

namespace Table

variable {κ ν σ : Type}

def new (name : String) (capacity : UInt64) : Table κ ν :=
  ⟨name, capacity, [], 0, 0⟩

def size (t : Table κ ν) : Nat :=
  t.entries.length

def isEmpty (t : Table κ ν) : Bool :=
  t.entries.isEmpty

def keys (t : Table κ ν) : List κ :=
  t.entries.map Prod.fst

def usage (t : Table κ ν) : Usage :=
  ⟨t.name, .ofNat t.size, t.capacity, t.dropped⟩

def clear (t : Table κ ν) : Nat × Table κ ν :=
  (t.size, { t with entries := [], occupied := t.occupied - t.size })

variable [DecidableEq κ]

def get? (t : Table κ ν) (k : κ) : Option ν :=
  (t.entries.find? (·.1 = k)).map Prod.snd

def put (t : Table κ ν) (k : κ) (v : ν) : Table κ ν :=
  { t with entries := t.entries.map fun e => if e.1 = k then (k, v) else e }

def append (t : Table κ ν) (k : κ) (v : ν) : Table κ ν :=
  { t with entries := t.entries ++ [(k, v)], occupied := t.occupied + 1 }

def refuse (t : Table κ ν) : Table κ ν :=
  { t with dropped := t.dropped + 1 }

/-- Update the value of `k`, or admit `k` with a first value if there is room. Both are computed
from a state `s` that they may change; on a refusal neither runs. -/
def upsertWith (t : Table κ ν) (k : κ) (init : σ → ν × σ) (update : ν → σ → ν × σ) (s : σ) :
    Admission × Table κ ν × σ :=
  match t.get? k with
  | some v => (.updated, t.put k (update v s).1, (update v s).2)
  | none =>
    if t.occupied < t.capacity.toNat then (.inserted, t.append k (init s).1, (init s).2)
    else (.dropped, t.refuse, s)

def upsert (t : Table κ ν) (k : κ) (init : ν) (update : ν → ν) : Table κ ν :=
  (t.upsertWith k (fun u => (init, u)) (fun v u => (update v, u)) ()).2.1

end Table
end SchedLedger
