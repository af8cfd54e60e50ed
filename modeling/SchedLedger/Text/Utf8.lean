/-! UTF-8. A byte text is read as a sequence of pieces: characters, and maximal parts that can
begin no character. A text is valid when every piece is a character. -/

namespace SchedLedger

abbrev Bytes := List UInt8

namespace Text.Utf8

/-- What a leading byte announces: the bytes still to come, the bounds of the next one, and the
bits it carries itself. The bounds leave out overlong forms, surrogates and values past the last
code point. -/
structure Lead where
  more : Nat
  low : UInt8
  high : UInt8
  bits : Nat

def lead? (b : UInt8) : Option Lead :=
  if b < 0x80 then some ⟨0, 0, 0, b.toNat⟩
  else if b < 0xC2 then none
  else if b < 0xE0 then some ⟨1, 0x80, 0xBF, b.toNat - 0xC0⟩
  else if b == 0xE0 then some ⟨2, 0xA0, 0xBF, 0⟩
  else if b == 0xED then some ⟨2, 0x80, 0x9F, 13⟩
  else if b < 0xF0 then some ⟨2, 0x80, 0xBF, b.toNat - 0xE0⟩
  else if b == 0xF0 then some ⟨3, 0x90, 0xBF, 0⟩
  else if b < 0xF4 then some ⟨3, 0x80, 0xBF, b.toNat - 0xF0⟩
  else if b == 0xF4 then some ⟨3, 0x80, 0x8F, 4⟩
  else none

/-- The rest of a character after its leading byte: `none` at the first byte out of bounds, which
is left unread. -/
def follow : (more : Nat) → (low high : UInt8) → (bits : Nat) → Bytes → Option Char × Bytes
  | 0, _, _, bits, rest => (some (Char.ofNat bits), rest)
  | _ + 1, _, _, _, [] => (none, [])
  | more + 1, low, high, bits, b :: rest =>
    if low ≤ b ∧ b ≤ high then follow more 0x80 0xBF (bits * 64 + (b.toNat - 0x80)) rest
    else (none, b :: rest)

def next (b : UInt8) (rest : Bytes) : Option Char × Bytes :=
  match lead? b with
  | some l => follow l.more l.low l.high l.bits rest
  | none => (none, rest)

theorem length_follow_le (more : Nat) (low high : UInt8) (bits : Nat) (rest : Bytes) :
    (follow more low high bits rest).2.length ≤ rest.length := by
  induction more generalizing low high bits rest with
  | zero => simp [follow]
  | succ more ih =>
    cases rest with
    | nil => simp [follow]
    | cons b rest =>
      simp only [follow]
      split
      · exact Nat.le_succ_of_le (ih _ _ _ _)
      · exact Nat.le_refl _

theorem length_next_le (b : UInt8) (rest : Bytes) : (next b rest).2.length ≤ rest.length := by
  unfold next
  split
  · exact length_follow_le _ _ _ _ _
  · exact Nat.le_refl _

/-- The pieces of a byte text, `none` for each maximal invalid part. -/
def pieces : Bytes → List (Option Char)
  | [] => []
  | b :: rest => (next b rest).1 :: pieces (next b rest).2
termination_by bs => bs.length
decreasing_by exact Nat.lt_succ_of_le (length_next_le b rest)

def replacement : Char := '\uFFFD'

def valid (bs : Bytes) : Bool :=
  (pieces bs).all Option.isSome

def decode? (bs : Bytes) : Option String :=
  (pieces bs).mapM id |>.map String.ofList

def lossy (bs : Bytes) : String :=
  String.ofList ((pieces bs).map (·.getD replacement))

def leading (bs : Bytes) : String :=
  let good := (pieces bs).takeWhile Option.isSome
  let text := String.ofList (good.filterMap id)
  if valid bs then text else text.push replacement

def encode (s : String) : Bytes :=
  s.toList.flatMap String.utf8EncodeChar

end Text.Utf8
end SchedLedger
