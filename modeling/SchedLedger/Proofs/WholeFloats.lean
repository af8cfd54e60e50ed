import Mathlib

/-! Floats that are whole numbers. A whole number of at most fifty-three binary digits is a float without rounding,
and so are sums and products that stay below 2^53. Such floats compare as the numbers do. -/

namespace SchedLedger

open Float.Model (Format totalExponent UnpackedFloat)
open Float.Model.UnpackedFloat

theorem log2_mul_two_pow {n : Nat} (hn : n ≠ 0) (k : Nat) : (n * 2 ^ k).log2 = n.log2 + k := by
  induction k with
  | zero => simp
  | succ k ih =>
    have hne : n * 2 ^ k ≠ 0 := Nat.mul_ne_zero hn (Nat.two_pow_pos k).ne'
    rw [Nat.pow_succ', Nat.mul_left_comm, Nat.log2_two_mul hne, ih, Nat.add_assoc]

theorem log2_le_of_fits {n : Nat} (hn : n ≠ 0) (h : n < 2 ^ 53) : n.log2 ≤ 52 :=
  Nat.le_of_lt_succ ((Nat.log2_lt hn).2 h)

/-- A whole number with its first binary digit moved to the place that a float has for it. -/
def significand (n : Nat) : Nat :=
  n * 2 ^ (52 - n.log2)

theorem significand_pos {n : Nat} (hn : n ≠ 0) : 0 < significand n :=
  Nat.mul_pos (Nat.pos_of_ne_zero hn) (Nat.two_pow_pos _)

theorem log2_significand {n : Nat} (hn : n ≠ 0) (h : n < 2 ^ 53) : (significand n).log2 = 52 := by
  have hlog := log2_le_of_fits hn h
  rw [significand, log2_mul_two_pow hn]
  omega

/-- A whole number as a float that has been taken apart. -/
def unpackedWhole (n : Nat) : UnpackedFloat :=
  if hn : n = 0 then .zero .positive else .finite .positive (significand n) (n.log2 - 52) (significand_pos hn)

theorem unpackedWhole_zero : unpackedWhole 0 = .zero .positive :=
  rfl

theorem unpackedWhole_of_ne {n : Nat} (hn : n ≠ 0) :
    unpackedWhole n = .finite .positive (significand n) (n.log2 - 52) (significand_pos hn) :=
  dif_neg hn

section Rounding

variable {n : Nat}

theorem shiftRight_exact (m k : Nat) :
    ExtendedMantissa.mk (m * 2 ^ k) false false >>> k = ExtendedMantissa.mk m false false := by
  change k.repeat ExtendedMantissa.shiftRightOne ⟨m * 2 ^ k, false, false⟩ = ⟨m, false, false⟩
  induction k generalizing m with
  | zero => simp [Nat.repeat]
  | succ k ih =>
    rw [Nat.repeat, Nat.pow_succ', ← Nat.mul_assoc, ih]
    simp [ExtendedMantissa.shiftRightOne]

/-- Where a float has the last digit of a number does not hang on how the number is written. -/
theorem targetExponent_exact (hn : n ≠ 0) (k : Nat) :
    Format.binary64.targetExponent (totalExponent (n * 2 ^ k) (-k)) = n.log2 - 52 := by
  rw [totalExponent, log2_mul_two_pow hn]
  simp only [Format.targetExponent, Format.mantissaBits, Format.minExponent]
  push_cast
  omega

theorem shiftToTargetExponent_exact (hn : n ≠ 0) {k : Nat} (h : 52 ≤ n.log2 + k) (hfits : n < 2 ^ 53) :
    shiftToTargetExponent Format.binary64 (n * 2 ^ k) (-k) .exact =
      (ExtendedMantissa.mk (significand n) false false, (n.log2 - 52 : Int)) := by
  have hlog := log2_le_of_fits hn hfits
  have hshift : ((n.log2 : Int) - 52 - -k).toNat = n.log2 + k - 52 := by omega
  have hsplit : n * 2 ^ k = significand n * 2 ^ (n.log2 + k - 52) := by
    rw [significand, Nat.mul_assoc, ← Nat.pow_add]
    congr 2
    omega
  rw [shiftToTargetExponent, targetExponent_exact hn, shiftToExponent, hshift, hsplit]
  refine Prod.ext (shiftRight_exact (significand n) _) ?_
  dsimp only
  omega

theorem roundWithAccuracy_exact (hn : n ≠ 0) {k : Nat} (h : 52 ≤ n.log2 + k) (hfits : n < 2 ^ 53) :
    roundWithAccuracy Format.binary64 .positive (n * 2 ^ k) (-k) .exact = unpackedWhole n := by
  have hlog := log2_le_of_fits hn hfits
  -- rounding leaves the number as it is, so shifting again has nothing to drop
  have hagain : shiftToTargetExponent Format.binary64 (significand n) (n.log2 - 52) .exact =
      (ExtendedMantissa.mk (significand n) false false, (n.log2 - 52 : Int)) := by
    have hexact := shiftToTargetExponent_exact hn (k := 52 - n.log2) (by omega) hfits
    rwa [show (-((52 - n.log2 : Nat) : Int)) = n.log2 - 52 by omega] at hexact
  have hrounded : (ExtendedMantissa.mk (significand n) false false).roundedMantissa = significand n := rfl
  simp only [roundWithAccuracy, shiftToTargetExponent_exact hn h hfits, hrounded, hagain, unpackedWhole_of_ne hn,
    dif_neg (significand_pos hn).ne']

theorem round_exact (hn : n ≠ 0) (hfits : n < 2 ^ 53) (k : Nat) :
    UnpackedFloat.round Format.binary64 .positive (n * 2 ^ k) (-k) = unpackedWhole n := by
  have hlog := log2_le_of_fits hn hfits
  set more := 52 - n.log2 - k
  have hmore : (-(k : Int) - (n.log2 - 52)).toNat = more := by omega
  have hexponent : -(k : Int) - more = -((k + more : Nat) : Int) := by omega
  simp only [UnpackedFloat.round, targetExponent_exact hn, decreaseExponent, hmore, hexponent]
  rw [Nat.shiftLeft_eq, Nat.mul_assoc, ← Nat.pow_add]
  exact roundWithAccuracy_exact hn (by omega) hfits

theorem normalize_exact (hfits : n < 2 ^ 53) (k : Nat) :
    UnpackedFloat.normalize Format.binary64 ((n * 2 ^ k : Nat) : Int) (-k) .positive = unpackedWhole n := by
  by_cases hn : n = 0
  · subst hn
    rw [Nat.zero_mul]
    rfl
  · have hpos : (0 : Int) < ((n * 2 ^ k : Nat) : Int) :=
      Int.natCast_pos.2 (Nat.mul_pos (Nat.pos_of_ne_zero hn) (Nat.two_pow_pos k))
    rw [UnpackedFloat.normalize, Int.compare_eq_gt.2 hpos]
    exact round_exact hn hfits k

end Rounding

section Packing

theorem unpackSign_packComponents {spec : Format} {sign : Sign} {exponent mantissa} :
    unpackSign (packComponents spec sign exponent mantissa) = sign.toBitVec := by
  ext i hi
  obtain rfl : i = 0 := by omega
  simp [unpackSign, packComponents, BitVec.getLsbD_append, BitVec.getElem_append]

theorem ofBitVec_toBitVec (sign : Sign) : Sign.ofBitVec sign.toBitVec = sign := by
  cases sign <;> rfl

theorem unpack_packedZero (sign : Sign) :
    unpack Format.binary64 (packedZero Format.binary64 sign) = .zero sign := by
  cases sign <;> rfl

theorem toNat_implicit_append {m : Nat} (hlog : m.log2 = 52) (hm : m ≠ 0) :
    (1#1 ++ BitVec.ofNat 52 m).toNat = m := by
  obtain ⟨hlow, hhigh⟩ := (Nat.log2_eq_iff hm).1 hlog
  rw [BitVec.toNat_append, ← Nat.shiftLeft_add_eq_or_of_lt (BitVec.isLt _), BitVec.toNat_ofNat]
  simp only [BitVec.toNat_ofNat, Nat.shiftLeft_eq]
  omega

section Finite

variable {m : Nat} {e : Int}

theorem toNat_biased (hlow : -1074 ≤ e) (hhigh : e ≤ 971) :
    (BitVec.ofNat 11 (e + 1075).toNat).toNat = (e + 1075).toNat := by
  rw [BitVec.toNat_ofNat]
  omega

theorem pack_finite (hm : 0 < m) (hlog : m.log2 = 52) (hlow : -1074 ≤ e) (hhigh : e ≤ 971) :
    pack Format.binary64 (.finite .positive m e hm) =
      packComponents Format.binary64 .positive (BitVec.ofNat 11 (e + 1075).toNat) (BitVec.ofNat 52 m) := by
  have hbiased : (e + Format.binary64.exponentBias + Format.binary64.mantissaBitsWithoutImplicit).toNat =
      (e + 1075).toNat := by
    change (e + 1023 + 52).toNat = (e + 1075).toNat
    omega
  rw [pack, hbiased, if_neg, if_pos]
  · rw [hlog]
    rfl
  · change ¬ 2 ^ 11 ≤ (e + 1075).toNat + 1
    omega

theorem unpack_pack_finite (hm : 0 < m) (hlog : m.log2 = 52) (hlow : -1074 ≤ e) (hhigh : e ≤ 971) :
    unpack Format.binary64 (pack Format.binary64 (.finite .positive m e hm)) = .finite .positive m e hm := by
  have hexponent := toNat_biased hlow hhigh
  have hfinite : BitVec.ofNat 11 (e + 1075).toNat ≠ -1#11 := by
    intro h
    rw [← BitVec.toNat_inj, hexponent] at h
    simp at h
    omega
  have hnormal : BitVec.ofNat 11 (e + 1075).toNat ≠ 0#11 := by
    intro h
    rw [← BitVec.toNat_inj, hexponent] at h
    simp at h
    omega
  rw [pack_finite hm hlog hlow hhigh, unpack]
  simp only [unpackMantissa_packComponents, unpackExponent_packComponents, unpackSign_packComponents,
    ofBitVec_toBitVec, if_neg hfinite, if_neg hnormal, hexponent, toNat_implicit_append hlog hm.ne']
  congr 1
  change ((e + 1075).toNat : Int) - (1023 + 52) = e
  omega

end Finite

theorem unpack_pack_unpackedWhole {n : Nat} (h : n < 2 ^ 53) :
    (Float.Model.pack (unpackedWhole n)).unpack = unpackedWhole n := by
  change unpack Format.binary64 (pack Format.binary64 (unpackedWhole n)) = unpackedWhole n
  by_cases hn : n = 0
  · subst hn
    exact unpack_packedZero .positive
  · have hlog := log2_le_of_fits hn h
    rw [unpackedWhole_of_ne hn]
    exact unpack_pack_finite _ (log2_significand hn h) (by omega) (by omega)

end Packing

/-- The float is the whole number. -/
def IsWhole (x : Float) (n : Nat) : Prop :=
  x.toModel.unpack = unpackedWhole n

section Arithmetic

variable {x y : Float} {a b : Nat}

theorem isWhole_pack {u : UnpackedFloat} (hu : u = unpackedWhole a) (h : a < 2 ^ 53) :
    IsWhole ⟨Float.Model.pack u⟩ a := by
  rw [IsWhole, hu]
  exact unpack_pack_unpackedWhole h

theorem decreaseExponent_significand (ha : a ≠ 0) (h : a < 2 ^ 53) {c : Nat} (hc : c ≤ a.log2) :
    (decreaseExponent (significand a) (a.log2 - 52) (c - 52)).1 = a * 2 ^ (52 - c) := by
  have hlog := log2_le_of_fits ha h
  have hshift : ((a.log2 : Int) - 52 - (c - 52)).toNat = a.log2 - c := by omega
  have hplaces : 52 - a.log2 + (a.log2 - c) = 52 - c := by omega
  rw [decreaseExponent, hshift, Nat.shiftLeft_eq, significand, Nat.mul_assoc, ← Nat.pow_add, hplaces]

theorem add_unpackedWhole (h : a + b < 2 ^ 53) :
    UnpackedFloat.add Format.binary64 (unpackedWhole a) (unpackedWhole b) = unpackedWhole (a + b) := by
  by_cases ha : a = 0
  · subst ha
    by_cases hb : b = 0
    · subst hb
      rfl
    · rw [unpackedWhole_zero, Nat.zero_add, unpackedWhole_of_ne hb]
      rfl
  by_cases hb : b = 0
  · subst hb
    rw [unpackedWhole_zero, Nat.add_zero, unpackedWhole_of_ne ha]
    rfl
  -- both summands are written with the place of the smaller one
  have hloga := log2_le_of_fits ha (by omega)
  have hlogb := log2_le_of_fits hb (by omega)
  set c := min a.log2 b.log2
  have hmin : min ((a.log2 : Int) - 52) (b.log2 - 52) = c - 52 := by omega
  have hsum : (Sign.positive.apply (a * 2 ^ (52 - c) : Nat) + Sign.positive.apply (b * 2 ^ (52 - c) : Nat)) =
      (((a + b) * 2 ^ (52 - c) : Nat) : Int) := by
    rw [Nat.add_mul, Int.natCast_add]
    rfl
  have hplace : (c : Int) - 52 = -((52 - c : Nat) : Int) := by omega
  have hdigitsa := decreaseExponent_significand ha (by omega) (show c ≤ a.log2 from Nat.min_le_left _ _)
  have hdigitsb := decreaseExponent_significand hb (by omega) (show c ≤ b.log2 from Nat.min_le_right _ _)
  rw [unpackedWhole_of_ne ha, unpackedWhole_of_ne hb]
  simp only [UnpackedFloat.add, hmin, hdigitsa, hdigitsb, hsum]
  rw [hplace]
  exact normalize_exact h _

theorem mul_unpackedWhole (h : a * b < 2 ^ 53) :
    UnpackedFloat.mul Format.binary64 (unpackedWhole a) (unpackedWhole b) = unpackedWhole (a * b) := by
  by_cases ha : a = 0
  · subst ha
    by_cases hb : b = 0
    · subst hb
      rfl
    · rw [unpackedWhole_zero, Nat.zero_mul, unpackedWhole_of_ne hb]
      rfl
  by_cases hb : b = 0
  · subst hb
    rw [unpackedWhole_zero, Nat.mul_zero, unpackedWhole_of_ne ha]
    rfl
  have hab : a * b ≠ 0 := Nat.mul_ne_zero ha hb
  have hloga := log2_le_of_fits ha ((Nat.le_mul_of_pos_right a (Nat.pos_of_ne_zero hb)).trans_lt h)
  have hlogb := log2_le_of_fits hb ((Nat.le_mul_of_pos_left b (Nat.pos_of_ne_zero ha)).trans_lt h)
  have hlog : a.log2 + b.log2 ≤ (a * b).log2 := by
    rw [Nat.le_log2 hab, Nat.pow_add]
    exact Nat.mul_le_mul (Nat.log2_self_le ha) (Nat.log2_self_le hb)
  -- digits and places of the factors make those of the product, with zeros behind them
  have hproduct : significand a * significand b = a * b * 2 ^ (104 - a.log2 - b.log2) := by
    rw [significand, significand, Nat.mul_mul_mul_comm, ← Nat.pow_add]
    congr 2
    omega
  have hplace : (a.log2 : Int) - 52 + (b.log2 - 52) = -((104 - a.log2 - b.log2 : Nat) : Int) := by omega
  rw [unpackedWhole_of_ne ha, unpackedWhole_of_ne hb]
  simp only [UnpackedFloat.mul, hproduct, hplace]
  exact roundWithAccuracy_exact hab (by omega) h

theorem IsWhole.add (hx : IsWhole x a) (hy : IsWhole y b) (h : a + b < 2 ^ 53) : IsWhole (x + y) (a + b) := by
  refine isWhole_pack ?_ h
  rw [hx, hy, add_unpackedWhole h]

theorem IsWhole.mul (hx : IsWhole x a) (hy : IsWhole y b) (h : a * b < 2 ^ 53) : IsWhole (x * y) (a * b) := by
  refine isWhole_pack ?_ h
  rw [hx, hy, mul_unpackedWhole h]

theorem isWhole_toFloat {n : UInt64} (h : n.toNat < 2 ^ 53) : IsWhole n.toFloat n.toNat := by
  refine isWhole_pack ?_ h
  have hexact := normalize_exact h 0
  rwa [Nat.pow_zero, Nat.mul_one] at hexact

theorem isWhole_one : IsWhole (Float.ofBits 0x3FF0000000000000) 1 := by
  rfl

theorem isWhole_thousand : IsWhole 1000.0 1000 := by
  rfl

theorem ofNat_eq_pack {n : Nat} (h : n < 2 ^ 53) : Float.ofNat n = ⟨Float.Model.pack (unpackedWhole n)⟩ := by
  have hsmall : n.toUInt64.toNat = n := Nat.mod_eq_of_lt (by omega)
  have hproduct : Float.ofNat n = ⟨Float.Model.pack (UnpackedFloat.mul Format.binary64
      n.toUInt64.toFloat.toModel.unpack (Float.ofBits 0x3FF0000000000000).toModel.unpack)⟩ :=
    dif_pos ⟨h, Nat.zero_le 22⟩
  have hfactor : n.toUInt64.toFloat.toModel.unpack = unpackedWhole n.toUInt64.toNat :=
    isWhole_toFloat (by rwa [hsmall])
  rw [hproduct, hfactor, isWhole_one, mul_unpackedWhole (by omega), Nat.mul_one, hsmall]

theorem isWhole_ofNat {n : Nat} (h : n < 2 ^ 53) : IsWhole (Float.ofNat n) n := by
  rw [ofNat_eq_pack h]
  exact isWhole_pack rfl h

theorem lt_of_log2_lt (hb : b ≠ 0) (h : a.log2 < b.log2) : a < b := by
  have hpow : 2 ^ (a.log2 + 1) ≤ 2 ^ b.log2 := Nat.pow_le_pow_right (by decide) h
  exact Nat.lt_log2_self.trans_le (hpow.trans (Nat.log2_self_le hb))

theorem compare_significand (h : a.log2 = b.log2) : compare (significand a) (significand b) = compare a b := by
  have hpos : 0 < 2 ^ (52 - b.log2) := Nat.two_pow_pos _
  rw [significand, significand, h]
  rcases Nat.lt_trichotomy a b with hlt | rfl | hgt
  · rw [Nat.compare_eq_lt.2 hlt, Nat.compare_eq_lt.2 (Nat.mul_lt_mul_of_pos_right hlt hpos)]
  · rw [Nat.compare_eq_eq.2 rfl, Nat.compare_eq_eq.2 rfl]
  · rw [Nat.compare_eq_gt.2 hgt, Nat.compare_eq_gt.2 (Nat.mul_lt_mul_of_pos_right hgt hpos)]

/-- The place of the first digit decides, and then the digits. -/
theorem compare_unpackedWhole (a b : Nat) : (unpackedWhole a).compare (unpackedWhole b) = some (compare a b) := by
  by_cases ha : a = 0
  · subst ha
    by_cases hb : b = 0
    · subst hb
      rfl
    · rw [unpackedWhole_zero, unpackedWhole_of_ne hb, Nat.compare_eq_lt.2 (Nat.pos_of_ne_zero hb)]
      rfl
  by_cases hb : b = 0
  · subst hb
    rw [unpackedWhole_zero, unpackedWhole_of_ne ha, Nat.compare_eq_gt.2 (Nat.pos_of_ne_zero ha)]
    rfl
  rw [unpackedWhole_of_ne ha, unpackedWhole_of_ne hb]
  simp only [UnpackedFloat.compare]
  congr 1
  rcases Nat.lt_trichotomy a.log2 b.log2 with hlt | heq | hgt
  · rw [Int.compare_eq_lt.2 (show (a.log2 : Int) - 52 < b.log2 - 52 by omega),
      Nat.compare_eq_lt.2 (lt_of_log2_lt hb hlt)]
    rfl
  · rw [Int.compare_eq_eq.2 (show (a.log2 : Int) - 52 = b.log2 - 52 by omega), compare_significand heq]
    rfl
  · rw [Int.compare_eq_gt.2 (show (b.log2 : Int) - 52 < a.log2 - 52 by omega),
      Nat.compare_eq_gt.2 (lt_of_log2_lt ha hgt)]
    rfl

theorem IsWhole.le_iff (hx : IsWhole x a) (hy : IsWhole y b) : x ≤ y ↔ a ≤ b := by
  change decide (x.toModel.unpack.le y.toModel.unpack = true) = true ↔ a ≤ b
  rw [hx, hy, decide_eq_true_iff, UnpackedFloat.le, compare_unpackedWhole, Option.any_some, Nat.isLE_compare]

/-- What compares equal to a whole number is the number or, where that is zero, may be the zero with a minus. -/
theorem eq_unpackedWhole_of_compare {u : UnpackedFloat} (h : u.compare (unpackedWhole b) = some .eq) :
    u = unpackedWhole b ∨ (b = 0 ∧ u = .zero .negative) := by
  by_cases hb : b = 0
  · subst hb
    rw [unpackedWhole_zero] at h ⊢
    cases u with
    | notANumber => nomatch h
    | infinity s => cases s <;> nomatch h
    | zero s =>
      cases s with
      | negative => exact .inr ⟨rfl, rfl⟩
      | positive => exact .inl rfl
    | finite s m e hm => cases s <;> nomatch h
  · rw [unpackedWhole_of_ne hb] at h ⊢
    cases u with
    | notANumber => nomatch h
    | infinity s => cases s <;> nomatch h
    | zero s => cases s <;> nomatch h
    | finite s m e hm =>
      cases s with
      | negative => nomatch h
      | positive =>
        simp only [UnpackedFloat.compare, Option.some.injEq, Ordering.then_eq_eq] at h
        obtain ⟨he, hsignificand⟩ := h
        obtain rfl := Int.compare_eq_eq.1 he
        obtain rfl := Nat.compare_eq_eq.1 hsignificand
        exact .inl rfl

/-- Adding what compares equal to a whole number is adding the number: the sign of a zero does not matter. -/
theorem IsWhole.add_of_beq (hx : IsWhole x a) (hy : (y == Float.ofNat b) = true) (h : a + b < 2 ^ 53) :
    IsWhole (x + y) (a + b) := by
  have hcompare : y.toModel.unpack.compare (unpackedWhole b) = some .eq := by
    rw [← isWhole_ofNat (n := b) (by omega)]
    exact eq_of_beq hy
  rcases eq_unpackedWhole_of_compare hcompare with hwhole | ⟨rfl, hzero⟩
  · exact hx.add hwhole h
  · refine isWhole_pack ?_ h
    rw [hx, hzero, Nat.add_zero]
    by_cases ha : a = 0
    · subst ha
      rfl
    · rw [unpackedWhole_of_ne ha]
      rfl

end Arithmetic

end SchedLedger
