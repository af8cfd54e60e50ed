import SchedLedger.Text.Utf8
import Mathlib.Data.UInt

/-! Encoded text is read back. Every character is one piece of the bytes that encode it, whatever follows; one that is
cut off is one invalid piece; and only the characters of one byte are encoded with bytes below 128. -/

namespace SchedLedger.Text.Utf8

deriving instance DecidableEq for Lead

/-! What the leading bytes of two, three and four announce: overlong forms, surrogates and values past the last
code point are ruled out by the bounds of the byte after them. -/

theorem lead?_of_one : ∀ n < 0x80, lead? (UInt8.ofNat n) = some ⟨0, 0, 0, n⟩ := by decide

theorem lead?_of_two : ∀ n < 32, 2 ≤ n → lead? (UInt8.ofNat (n + 192)) = some ⟨1, 0x80, 0xBF, n⟩ := by decide

theorem lead?_of_three : ∀ n < 16, lead? (UInt8.ofNat (n + 224)) =
    some ⟨2, if n = 0 then 0xA0 else 0x80, if n = 13 then 0x9F else 0xBF, n⟩ := by decide

theorem lead?_of_four : ∀ n < 5, lead? (UInt8.ofNat (n + 240)) =
    some ⟨3, if n = 0 then 0x90 else 0x80, if n = 4 then 0x8F else 0xBF, n⟩ := by decide

theorem follow_ofNat {n : Nat} {low high : UInt8} (more bits : Nat) (rest : Bytes) (hn : n < 64)
    (hlow : low.toNat ≤ n + 128) (hhigh : n + 128 ≤ high.toNat) :
    follow (more + 1) low high bits (UInt8.ofNat (n + 128) :: rest) =
      follow more 0x80 0xBF (bits * 64 + n) rest := by
  have hbyte : (UInt8.ofNat (n + 128)).toNat = n + 128 := UInt8.toNat_ofNat_of_lt' (by simp [UInt8.size]; omega)
  have hbounds : low ≤ UInt8.ofNat (n + 128) ∧ UInt8.ofNat (n + 128) ≤ high := by
    simp only [UInt8.le_iff_toNat_le, hbyte]
    exact ⟨hlow, hhigh⟩
  rw [follow, if_pos hbounds, hbyte, Nat.add_sub_cancel]

theorem next_of_lead {b : UInt8} {l : Lead} (h : lead? b = some l) (rest : Bytes) :
    next b rest = follow l.more l.low l.high l.bits rest := by
  rw [next, h]

section Lengths

variable {v : Nat} (rest : Bytes)

theorem next_of_one (h : v ≤ 0x7F) : next (UInt8.ofNat v) rest = (some (Char.ofNat v), rest) :=
  next_of_lead (lead?_of_one v (by omega)) rest

theorem next_of_two (hlow : 0x7F < v) (hhigh : v ≤ 0x7FF) :
    next (UInt8.ofNat (v / 64 % 32 + 192)) (UInt8.ofNat (v % 64 + 128) :: rest) = (some (Char.ofNat v), rest) := by
  have hv : v / 64 % 32 * 64 + v % 64 = v := by omega
  rw [next_of_lead (lead?_of_two (v / 64 % 32) (by omega) (by omega)),
    follow_ofNat _ _ _ (by omega) (by simp) (by simp; omega), follow, hv]

theorem next_of_three (hlow : 0x7FF < v) (hhigh : v ≤ 0xFFFF) (hvalid : v < 0xD800 ∨ 0xDFFF < v) :
    next (UInt8.ofNat (v / 4096 % 16 + 224))
        (UInt8.ofNat (v / 64 % 64 + 128) :: UInt8.ofNat (v % 64 + 128) :: rest) = (some (Char.ofNat v), rest) := by
  have hv : (v / 4096 % 16 * 64 + v / 64 % 64) * 64 + v % 64 = v := by omega
  have hleast : (if v / 4096 % 16 = 0 then (0xA0 : UInt8) else 0x80).toNat ≤ v / 64 % 64 + 128 := by
    split
    · simp
      omega
    · simp
  have hmost : v / 64 % 64 + 128 ≤ (if v / 4096 % 16 = 13 then (0x9F : UInt8) else 0xBF).toNat := by
    split <;> simp <;> omega
  rw [next_of_lead (lead?_of_three (v / 4096 % 16) (by omega)), follow_ofNat _ _ _ (by omega) hleast hmost,
    follow_ofNat _ _ _ (by omega) (by simp) (by simp; omega), follow, hv]

theorem next_of_four (hlow : 0xFFFF < v) (hhigh : v < 0x110000) :
    next (UInt8.ofNat (v / 262144 % 8 + 240))
        (UInt8.ofNat (v / 4096 % 64 + 128) :: UInt8.ofNat (v / 64 % 64 + 128) :: UInt8.ofNat (v % 64 + 128) :: rest) =
      (some (Char.ofNat v), rest) := by
  have hv : ((v / 262144 % 8 * 64 + v / 4096 % 64) * 64 + v / 64 % 64) * 64 + v % 64 = v := by omega
  have hleast : (if v / 262144 % 8 = 0 then (0x90 : UInt8) else 0x80).toNat ≤ v / 4096 % 64 + 128 := by
    split
    · simp
      omega
    · simp
  have hmost : v / 4096 % 64 + 128 ≤ (if v / 262144 % 8 = 4 then (0x8F : UInt8) else 0xBF).toNat := by
    split <;> simp <;> omega
  rw [next_of_lead (lead?_of_four (v / 262144 % 8) (by omega)), follow_ofNat _ _ _ (by omega) hleast hmost,
    follow_ofNat _ _ _ (by omega) (by simp) (by simp; omega),
    follow_ofNat _ _ _ (by omega) (by simp) (by simp; omega), follow, hv]

end Lengths

theorem pieces_utf8EncodeChar_append (c : Char) (rest : Bytes) :
    pieces (String.utf8EncodeChar c ++ rest) = some c :: pieces rest := by
  have hvalid : c.val.toNat < 0xD800 ∨ (0xDFFF < c.val.toNat ∧ c.val.toNat < 0x110000) := c.valid
  have hc : Char.ofNat c.val.toNat = c := Char.ofNat_toNat c
  simp only [String.utf8EncodeChar]
  generalize c.val.toNat = v at hvalid hc
  split
  · next hone => rw [List.singleton_append, pieces, next_of_one rest hone, hc]
  · next hone =>
    split
    · next htwo =>
      simp only [List.cons_append, List.nil_append]
      rw [pieces, next_of_two rest (by omega) htwo, hc]
    · next htwo =>
      split
      · next hthree =>
        simp only [List.cons_append, List.nil_append]
        rw [pieces, next_of_three rest (by omega) hthree (by omega), hc]
      · next hthree =>
        simp only [List.cons_append, List.nil_append]
        rw [pieces, next_of_four rest (by omega) (by omega), hc]

theorem pieces_encode (s : String) : pieces (encode s) = s.toList.map some := by
  rw [encode]
  induction s.toList with
  | nil => simp [pieces]
  | cons c cs ih => rw [List.flatMap_cons, pieces_utf8EncodeChar_append, ih, List.map_cons]

theorem decode?_encode (s : String) : decode? (encode s) = some s := by
  have hall : (s.toList.map some).mapM id = some s.toList := by
    induction s.toList with
    | nil => rfl
    | cons c cs ih => simp [List.mapM_cons, ih]
  rw [decode?, pieces_encode, hall, Option.map_some, String.ofList_toList]

section Cuts

variable {more bits : Nat} {low high : UInt8} {bs rest : Bytes} {c : Char}

theorem length_of_follow (h : follow more low high bits bs = (some c, rest)) : bs.length = more + rest.length := by
  induction more generalizing low high bits bs with
  | zero =>
    rw [follow, Prod.mk.injEq] at h
    rw [h.2, Nat.zero_add]
  | succ more ih =>
    cases bs with
    | nil => simp [follow] at h
    | cons b bs =>
      rw [follow] at h
      split at h
      · have hlength := ih h
        rw [List.length_cons]
        omega
      · simp at h

/-- Where the bytes end before the character does, they are all part of it. -/
theorem follow_take (h : follow more low high bits bs = (some c, rest)) {k : Nat} (hk : k < more) :
    follow more low high bits (bs.take k) = (none, []) := by
  induction more generalizing low high bits bs k with
  | zero => exact absurd hk (Nat.not_lt_zero k)
  | succ more ih =>
    cases bs with
    | nil => simp [follow] at h
    | cons b bs =>
      rw [follow] at h
      split at h
      · next hbounds =>
        cases k with
        | zero => rw [List.take_zero, follow]
        | succ k => rw [List.take_succ_cons, follow, if_pos hbounds, ih h (Nat.lt_of_succ_lt_succ hk)]
      · simp at h

/-- A character that is cut off leaves one invalid part. -/
theorem pieces_take_utf8EncodeChar {k : Nat} (hpos : 0 < k) (hk : k < (String.utf8EncodeChar c).length) :
    pieces ((String.utf8EncodeChar c).take k) = [none] := by
  have hwhole := pieces_utf8EncodeChar_append c []
  obtain ⟨k, rfl⟩ := Nat.exists_eq_add_one.2 hpos
  cases hc : String.utf8EncodeChar c with
  | nil => simp [hc] at hk
  | cons b bs =>
    rw [hc, List.length_cons] at hk
    rw [hc, List.append_nil, pieces, pieces, List.cons.injEq] at hwhole
    obtain ⟨hfirst, hnone⟩ := hwhole
    have hrest : (next b bs).2 = [] := by
      cases hrest : (next b bs).2 with
      | nil => rfl
      | cons => rw [hrest, pieces] at hnone; cases hnone
    cases hlead : lead? b with
    | none => simp [next, hlead] at hfirst
    | some l =>
      rw [next_of_lead hlead] at hfirst hrest
      have hfollow : follow l.more l.low l.high l.bits bs = (some c, []) := Prod.ext hfirst hrest
      have hmore := length_of_follow hfollow
      rw [List.length_nil] at hmore
      rw [List.take_succ_cons, pieces, next_of_lead hlead, follow_take hfollow (by omega), pieces]

end Cuts

/-- Only a character of one byte is encoded with a byte below 128, and that byte is its number. -/
theorem toNat_eq_of_mem_utf8EncodeChar {b : UInt8} (hb : b < 0x80) {c : Char} (h : b ∈ String.utf8EncodeChar c) :
    c.toNat = b.toNat := by
  have hbyte : ∀ n, b = UInt8.ofNat n → n % 256 = b.toNat := by
    rintro n rfl
    exact UInt8.toNat_ofNat'.symm
  rw [UInt8.lt_iff_toNat_lt] at hb
  change b.toNat < 128 at hb
  change c.val.toNat = b.toNat
  simp only [String.utf8EncodeChar] at h
  generalize c.val.toNat = v at h ⊢
  -- a byte that is not the only one of its character is 128 at least
  split at h
  · have hv := hbyte v (List.mem_singleton.1 h)
    omega
  · split at h
    · simp only [List.mem_cons, List.not_mem_nil, or_false] at h
      rcases h with h | h <;> have hn := hbyte _ h <;> omega
    · split at h <;> simp only [List.mem_cons, List.not_mem_nil, or_false] at h
      · rcases h with h | h | h <;> have hn := hbyte _ h <;> omega
      · rcases h with h | h | h | h <;> have hn := hbyte _ h <;> omega

theorem eq_newline_of_mem_utf8EncodeChar {c : Char} (h : 0x0A ∈ String.utf8EncodeChar c) : c = '\n' :=
  Char.toNat_inj.1 (toNat_eq_of_mem_utf8EncodeChar (by decide) h)

theorem newline_notMem_encode {s : String} (h : '\n' ∉ s.toList) : 0x0A ∉ encode s := by
  intro hmem
  obtain ⟨c, hc, hnewline⟩ := List.mem_flatMap.1 hmem
  rw [eq_newline_of_mem_utf8EncodeChar hnewline] at hc
  exact h hc

end SchedLedger.Text.Utf8
