import SchedLedger.Text.Utf8

/-! Fixed-width text buffers. The content ends at the first NUL, and a write leaves at least one,
so a buffer of width `n` holds at most `n - 1` bytes of content. -/

namespace SchedLedger

structure Padded (n : Nat) where
  raw : Vector UInt8 n
deriving DecidableEq

namespace Padded

variable {n : Nat}

def empty : Padded n :=
  ⟨Vector.replicate n 0⟩

instance : Inhabited (Padded n) := ⟨empty⟩

def fit (n : Nat) (src : Bytes) : Bytes :=
  (src.takeWhile (· != 0)).take (n - 1)

/-- The bytes of `content` from the first position on; the rest of the buffer stays. -/
def overlay (b : Padded n) (content : Bytes) : Padded n :=
  ⟨Vector.ofFn fun i => content[i.val]?.getD b.raw[i]⟩

def clear (_ : Padded n) : Padded n :=
  empty

def write (b : Padded n) (src : Bytes) : Padded n :=
  b.clear.overlay (fit n src)

def ofBytes (src : Bytes) : Padded n :=
  empty.write src

def written (n : Nat) (src : Bytes) : Nat :=
  (fit n src).length

def poke (b : Padded n) (i : Nat) (x : UInt8) : Padded n :=
  ⟨b.raw.setIfInBounds i x⟩

def toBytes (b : Padded n) : Bytes :=
  b.raw.toList

def content (b : Padded n) : Bytes :=
  b.toBytes.takeWhile (· != 0)

def isEmpty (b : Padded n) : Bool :=
  match b.toBytes with
  | [] => true
  | x :: _ => x == 0

/-- The content of a group path that could not be resolved: `n/a`. -/
def sentinel : Bytes :=
  [0x6E, 0x2F, 0x61]

def writeSentinel (b : Padded n) : Padded n :=
  b.write sentinel

def isSentinel (b : Padded n) : Bool :=
  b.content == sentinel

/-- The content as text, with a replacement mark for each invalid part. -/
def lossy (b : Padded n) : String :=
  Text.Utf8.lossy b.content

def display (b : Padded n) : String :=
  Text.Utf8.leading b.content

end Padded

abbrev Comm := Padded 16

abbrev GroupPath := Padded 64

end SchedLedger
