import SchedLedger.Decimal.Binary64
import SchedLedger.Proofs.WholeFloats

/-! Floats nearest to whole numbers. A whole number with more than fifty-three binary digits is rounded to the nearest
one that has only zeros after the first fifty-three, and of two equally near ones to that whose last kept digit is
even. -/

namespace SchedLedger

open Float.Model (Format totalExponent UnpackedFloat)
open Float.Model.UnpackedFloat
open Decimal

/-- How many binary digits of a number a float has no room for. -/
def spareDigits (n : Nat) : Nat :=
  n.log2 - 52

/-- The whole number that a number is rounded to. -/
def nearestWhole (n : Nat) : Nat :=
  roundDiv n (2 ^ spareDigits n) * 2 ^ spareDigits n

section Shifting

variable {n : Nat}

theorem shiftRight_succ (em : ExtendedMantissa) (k : Nat) : em >>> (k + 1) = (em >>> k).shiftRightOne :=
  rfl

theorem shiftRight_add (em : ExtendedMantissa) (j k : Nat) : em >>> (j + k) = (em >>> j) >>> k := by
  induction k with
  | zero => rfl
  | succ k ih => rw [← Nat.add_assoc, shiftRight_succ, ih, shiftRight_succ]

theorem mod_two_pow_succ_ne_zero_iff (n k : Nat) :
    n % 2 ^ (k + 1) ≠ 0 ↔ n / 2 ^ k % 2 ≠ 0 ∨ n % 2 ^ k ≠ 0 := by
  have hsplit : n % 2 ^ (k + 1) = n % 2 ^ k + 2 ^ k * (n / 2 ^ k % 2) := by
    rw [Nat.pow_succ, Nat.mod_mul]
  have hpos : 0 < 2 ^ k := Nat.two_pow_pos k
  rw [hsplit]
  constructor
  · intro h
    by_contra hnone
    push Not at hnone
    simp [hnone.1, hnone.2] at h
  · rintro (h | h) hzero
    · have hone : n / 2 ^ k % 2 = 1 := by omega
      rw [hone] at hzero
      omega
    · omega

/-- Of the digits that are dropped the first is kept apart, and of the others whether they are all zeros. -/
theorem shiftRight_eq (n k : Nat) :
    ExtendedMantissa.mk n false false >>> (k + 1) =
      ExtendedMantissa.mk (n / 2 ^ (k + 1)) (n / 2 ^ k % 2 != 0) (n % 2 ^ k != 0) := by
  induction k with
  | zero =>
    rw [Nat.pow_zero, Nat.div_one, Nat.mod_one]
    rfl
  | succ k ih =>
    rw [shiftRight_succ, ih, ExtendedMantissa.shiftRightOne]
    congr 1
    · rw [Nat.div_div_eq_div_mul, ← Nat.pow_succ]
    · rw [Bool.eq_iff_iff]
      simp [mod_two_pow_succ_ne_zero_iff]

theorem roundDiv_one (n : Nat) : roundDiv n 1 = n := by
  simp [roundDiv, Nat.mod_one]

theorem roundedMantissa_of_low (q : Nat) (sticky : Bool) :
    (ExtendedMantissa.mk q false sticky).roundedMantissa = q := by
  cases sticky <;> rfl

theorem roundedMantissa_shiftRight (n k : Nat) :
    (ExtendedMantissa.mk n false false >>> k).roundedMantissa = roundDiv n (2 ^ k) := by
  cases k with
  | zero => exact (roundDiv_one n).symm
  | succ k =>
    have hlow : n % 2 ^ k < 2 ^ k := Nat.mod_lt n (Nat.two_pow_pos k)
    have hpow : 2 ^ (k + 1) = 2 ^ k * 2 := Nat.pow_succ 2 k
    have hrest : n % 2 ^ (k + 1) = n % 2 ^ k + 2 ^ k * (n / 2 ^ k % 2) := by
      rw [hpow, Nat.mod_mul]
    rw [shiftRight_eq]
    simp only [roundDiv, hrest]
    -- the digit that is dropped first, and then whether anything but zeros follows it
    rcases Nat.mod_two_eq_zero_or_one (n / 2 ^ k) with hdigit | hdigit <;> rw [hdigit]
    · rw [if_pos (by omega)]
      exact roundedMantissa_of_low _ _
    · rw [if_neg (by omega)]
      by_cases hnone : n % 2 ^ k = 0
      · rw [hnone, if_neg (by omega)]
        change n / 2 ^ (k + 1) + n / 2 ^ (k + 1) % 2 = _
        split <;> omega
      · rw [if_pos (by omega), bne_iff_ne.2 hnone]
        rfl

end Shifting

section Division

variable {n d q : Nat}

theorem roundDiv_bounds (n d : Nat) : n / d ≤ roundDiv n d ∧ roundDiv n d ≤ n / d + 1 := by
  simp only [roundDiv]
  split_ifs <;> omega

/-- A number that is at most half a unit away from the quotient is what the quotient is rounded to, provided that it
is even if it is just half a unit away. -/
theorem roundDiv_eq_of_near (hd : 0 < d) (hlow : 2 * (q * d) ≤ 2 * n + d) (hhigh : 2 * n ≤ 2 * (q * d) + d)
    (htie : q % 2 = 0 ∨ (2 * (q * d) < 2 * n + d ∧ 2 * n < 2 * (q * d) + d)) : roundDiv n d = q := by
  rcases Nat.lt_or_ge n (q * d) with hbelow | habove
  · -- the quotient without its rest is one less
    obtain ⟨q', rfl⟩ : ∃ q', q = q' + 1 := Nat.exists_eq_succ_of_ne_zero (by rintro rfl; omega)
    have hstep : (q' + 1) * d = q' * d + d := Nat.add_one_mul q' d
    obtain ⟨hdiv, hmod⟩ := (Nat.div_mod_unique (a := n) (c := n - q' * d) (d := q') hd).2
      ⟨by rw [Nat.mul_comm d]; omega, by omega⟩
    simp only [roundDiv, hdiv, hmod]
    split_ifs <;> omega
  · obtain ⟨hdiv, hmod⟩ := (Nat.div_mod_unique (a := n) (c := n - q * d) (d := q) hd).2
      ⟨by rw [Nat.mul_comm d]; omega, by omega⟩
    simp only [roundDiv, hdiv, hmod]
    split_ifs <;> omega

end Division

section Rounding

variable {n : Nat}

theorem nearestWhole_of_fits (h : n < 2 ^ 53) : nearestWhole n = n := by
  have hspare : spareDigits n = 0 := by
    by_cases hn : n = 0
    · rw [hn]
      rfl
    · exact Nat.sub_eq_zero_of_le (log2_le_of_fits hn h)
  rw [nearestWhole, hspare, Nat.pow_zero, roundDiv_one, Nat.mul_one]

theorem nearestWhole_le (n : Nat) : nearestWhole n ≤ n + 2 ^ spareDigits n := by
  have hround : nearestWhole n ≤ (n / 2 ^ spareDigits n + 1) * 2 ^ spareDigits n :=
    Nat.mul_le_mul_right _ (roundDiv_bounds n _).2
  have hrest : n / 2 ^ spareDigits n * 2 ^ spareDigits n ≤ n := Nat.div_mul_le_self n _
  rw [Nat.add_one_mul] at hround
  omega

theorem log2_of_large (h : 2 ^ 53 ≤ n) : n.log2 = 52 + spareDigits n ∧ 1 ≤ spareDigits n := by
  have hlog : 53 ≤ n.log2 := (Nat.le_log2 (by omega)).2 h
  rw [spareDigits]
  omega

theorem log2_leading {m : Nat} (hm : m.log2 = 52) (k : Nat) :
    (m * 2 ^ k).log2 = 52 + k ∧ spareDigits (m * 2 ^ k) = k := by
  have hne : m ≠ 0 := by
    rintro rfl
    exact absurd hm (by decide)
  rw [spareDigits, log2_mul_two_pow hne, hm]
  omega

theorem leading_unique {m m' k k' : Nat} (hm : m.log2 = 52) (hm' : m'.log2 = 52) (h : m * 2 ^ k = m' * 2 ^ k') :
    m = m' ∧ k = k' := by
  have hk : k = k' := by
    rw [← (log2_leading hm k).2, h, (log2_leading hm' k').2]
  subst hk
  exact ⟨Nat.eq_of_mul_eq_mul_right (Nat.two_pow_pos k) h, rfl⟩

/-- Without the digits that there is no room for, a large number has fifty-three. If it is rounded up to a power of
two, there is one more, a zero. -/
theorem exists_leading (h : 2 ^ 53 ≤ n) :
    ∃ m j, m.log2 = 52 ∧ j ≤ 1 ∧ roundDiv n (2 ^ spareDigits n) = m * 2 ^ j ∧
      nearestWhole n = m * 2 ^ (j + spareDigits n) := by
  obtain ⟨hlog, -⟩ := log2_of_large h
  obtain ⟨hlow, hhigh⟩ := (Nat.log2_eq_iff (show n ≠ 0 by omega)).1 hlog
  have hpos : 0 < 2 ^ spareDigits n := Nat.two_pow_pos _
  have hleast : 2 ^ 52 ≤ n / 2 ^ spareDigits n := by
    rw [Nat.le_div_iff_mul_le hpos, ← Nat.pow_add]
    exact hlow
  have hgreatest : n / 2 ^ spareDigits n < 2 ^ 53 := by
    rw [Nat.div_lt_iff_lt_mul hpos, ← Nat.pow_add]
    rwa [show 53 + spareDigits n = 52 + spareDigits n + 1 by omega]
  obtain ⟨hleft, hup⟩ := roundDiv_bounds n (2 ^ spareDigits n)
  rcases Nat.lt_or_ge (roundDiv n (2 ^ spareDigits n)) (2 ^ 53) with hlt | hge
  · have hlog52 : (roundDiv n (2 ^ spareDigits n)).log2 = 52 := (Nat.log2_eq_iff (by omega)).2 ⟨by omega, hlt⟩
    exact ⟨_, 0, hlog52, Nat.zero_le 1, (Nat.mul_one _).symm, by rw [Nat.zero_add]; rfl⟩
  · have heq : roundDiv n (2 ^ spareDigits n) = 2 ^ 52 * 2 ^ 1 := by omega
    exact ⟨2 ^ 52, 1, Nat.log2_two_pow, Nat.le_refl 1, heq, by
      rw [nearestWhole, heq, Nat.mul_assoc, ← Nat.pow_add]⟩

theorem le_nearestWhole (h : 2 ^ 53 ≤ n) : 2 ^ 53 ≤ nearestWhole n := by
  obtain ⟨m, j, hlog, -, -, hvalue⟩ := exists_leading h
  obtain ⟨-, hspare⟩ := log2_of_large h
  have hm : 2 ^ 52 ≤ m := (Nat.le_log2 (by rintro rfl; exact absurd hlog (by decide))).1 hlog.ge
  have hunit : 2 ^ 1 ≤ 2 ^ (j + spareDigits n) := Nat.pow_le_pow_right (by decide) (by omega)
  rw [hvalue]
  exact Nat.mul_le_mul hm hunit

theorem shiftToTargetExponent_leading {m : Nat} (hm : m.log2 = 52) (j e : Nat) :
    shiftToTargetExponent Format.binary64 (m * 2 ^ j) e .exact =
      (ExtendedMantissa.mk m false false, ((j + e : Nat) : Int)) := by
  have htarget : Format.binary64.targetExponent (totalExponent (m * 2 ^ j) e) = ((j + e : Nat) : Int) := by
    rw [totalExponent, (log2_leading hm j).1]
    simp only [Format.targetExponent, Format.mantissaBits, Format.minExponent]
    push_cast
    omega
  have hshift : (((j + e : Nat) : Int) - e).toNat = j := by omega
  rw [shiftToTargetExponent, htarget, shiftToExponent, hshift]
  refine Prod.ext (shiftRight_exact m j) ?_
  change (e : Int) + j = ((j + e : Nat) : Int)
  omega

theorem shiftToTargetExponent_large (h : 2 ^ 53 ≤ n) (j : Nat) :
    shiftToTargetExponent Format.binary64 (n * 2 ^ j) (-j) .exact =
      (ExtendedMantissa.mk n false false >>> spareDigits n, (spareDigits n : Int)) := by
  obtain ⟨hlog, -⟩ := log2_of_large h
  have hne : n ≠ 0 := by omega
  have hshift : ((n.log2 : Int) - 52 - -j).toNat = j + spareDigits n := by omega
  rw [shiftToTargetExponent, targetExponent_exact hne, shiftToExponent, hshift]
  refine Prod.ext ?_ ?_
  · change ExtendedMantissa.mk (n * 2 ^ j) false false >>> (j + spareDigits n) = _
    rw [shiftRight_add, shiftRight_exact]
  · change -(j : Int) + ((j + spareDigits n : Nat) : Int) = spareDigits n
    omega

theorem roundWithAccuracy_large (h : 2 ^ 53 ≤ n) {m k : Nat} (hlog : m.log2 = 52) (hm : 0 < m)
    (hvalue : nearestWhole n = m * 2 ^ k) (j : Nat) :
    roundWithAccuracy Format.binary64 .positive (n * 2 ^ j) (-j) .exact = .finite .positive m k hm := by
  obtain ⟨m', i, hlog', -, hrounded, hvalue'⟩ := exists_leading h
  obtain ⟨rfl, rfl⟩ := leading_unique hlog hlog' (hvalue.symm.trans hvalue')
  simp only [roundWithAccuracy, shiftToTargetExponent_large h, roundedMantissa_shiftRight, hrounded,
    shiftToTargetExponent_leading hlog, dif_neg hm.ne']

/-- The float of a large number has the digits and the place of the number that it is rounded to. -/
theorem ofNat_large (h : 2 ^ 53 ≤ n) {m k : Nat} (hlog : m.log2 = 52) (hm : 0 < m)
    (hvalue : nearestWhole n = m * 2 ^ k) :
    Float.ofNat n = ⟨Float.Model.pack (.finite .positive m k hm)⟩ := by
  have hne : n ≠ 0 := by omega
  have hrange : ¬ (0 : Int) < -(2 ^ 11 + (n.log2 : Int)) := by omega
  have hround := roundWithAccuracy_large h hlog hm hvalue 53
  have hrounded : UnpackedFloat.ofScientific Format.binary64 n 0 = .finite .positive m k hm := by
    rw [UnpackedFloat.ofScientific, dif_neg hne, if_neg (by decide), if_neg hrange, if_pos (by decide)]
    change roundWithAccuracy Format.binary64 .positive (n <<< 53 * 1) (-53 + 0) .exact = _
    rw [Nat.shiftLeft_eq, Nat.mul_one]
    exact hround
  have hlarge : Float.ofNat n = ⟨Float.Model.ofScientific n 0⟩ :=
    dif_neg fun hsmall => absurd hsmall.1 (Nat.not_lt.2 h)
  rw [hlarge, Float.Model.ofScientific, hrounded]

theorem ofNat_eq_of_nearestWhole_eq {p : Nat} (hn : 2 ^ 53 ≤ n) (hp : 2 ^ 53 ≤ p)
    (h : nearestWhole p = nearestWhole n) : Float.ofNat p = Float.ofNat n := by
  obtain ⟨m, j, hlog, -, -, hvalue⟩ := exists_leading hn
  have hm : 0 < m := Nat.pos_of_ne_zero (by rintro rfl; exact absurd hlog (by decide))
  rw [ofNat_large hn hlog hm hvalue, ofNat_large hp hlog hm (h.trans hvalue)]

end Rounding

section Shapes

theorem pow2_eq (k : Nat) : pow2 k = 2 ^ k :=
  rfl

variable {m : Nat} {e : Int}

theorem toNat_packComponents (exponent : BitVec 11) (mantissa : BitVec 52) :
    (packComponents Format.binary64 .positive exponent mantissa).toNat =
      exponent.toNat * 2 ^ 52 + mantissa.toNat := by
  change (BitVec.ofNat 1 0 ++ exponent ++ mantissa).toNat = _
  rw [BitVec.toNat_append, BitVec.toNat_append, ← Nat.shiftLeft_add_eq_or_of_lt mantissa.isLt,
    ← Nat.shiftLeft_add_eq_or_of_lt exponent.isLt, Nat.shiftLeft_eq]
  simp

theorem ofFloat_pack (hm : 0 < m) (hlog : m.log2 = 52) (hlow : -1074 ≤ e) (hhigh : e ≤ 971) :
    Shape.ofFloat ⟨Float.Model.pack (.finite .positive m e hm)⟩ =
      .finite false ⟨m, e, m == 2 ^ 52 && decide (-1074 < e)⟩ := by
  obtain ⟨hleast, hless⟩ := (Nat.log2_eq_iff hm.ne').1 hlog
  have hbits : (Float.Model.pack (.finite .positive m e hm)).toBits.toNat =
      (e + 1075).toNat * 2 ^ 52 + (m - 2 ^ 52) := by
    have hpack : (Float.Model.pack (.finite .positive m e hm)).toBits.toBitVec =
        pack Format.binary64 (.finite .positive m e hm) := rfl
    have hmantissa : m % 2 ^ 52 = m - 2 ^ 52 := by omega
    rw [← UInt64.toNat_toBitVec, hpack, pack_finite hm hlog hlow hhigh, toNat_packComponents,
      toNat_biased hlow hhigh, BitVec.toNat_ofNat, hmantissa]
  simp only [Shape.ofFloat, Float.toBits, hbits, pow2_eq]
  have hnegative : ((e + 1075).toNat * 2 ^ 52 + (m - 2 ^ 52)) / 2 ^ 63 = 0 := by omega
  have hexponent : ((e + 1075).toNat * 2 ^ 52 + (m - 2 ^ 52)) / 2 ^ 52 % 2 ^ 11 = (e + 1075).toNat := by omega
  have hfraction : ((e + 1075).toNat * 2 ^ 52 + (m - 2 ^ 52)) % 2 ^ 52 = m - 2 ^ 52 := by omega
  have hplace : Int.ofNat (e + 1075).toNat - 1075 = e := by
    change ((e + 1075).toNat : Int) - 1075 = e
    omega
  have hnarrow : (m - 2 ^ 52 == 0 && decide (1 < (e + 1075).toNat)) = (m == 2 ^ 52 && decide (-1074 < e)) := by
    rw [Bool.eq_iff_iff]
    simp only [Bool.and_eq_true, beq_iff_eq, decide_eq_true_eq]
    omega
  rw [hnegative, hexponent, hfraction, if_neg (by omega), if_neg (by omega), hplace, Nat.add_sub_cancel' hleast,
    hnarrow]
  rfl

/-- The parts of a float make up a whole number. -/
structure Decimal.Dyadic.Stands (x : Dyadic) (v : Nat) : Prop where
  log2 : x.mantissa.log2 = 52
  value : x.numerator = v * x.denominator
  narrow : x.narrowBelow = (x.mantissa == 2 ^ 52)

theorem exists_stands {n : Nat} (hn : n ≠ 0) (h : n < 2 ^ 64) :
    ∃ x, Shape.ofFloat (Float.ofNat n) = .finite false x ∧ x.Stands (nearestWhole n) := by
  -- a number that fits is shifted up to fill the digits; any other is rounded first
  rcases Nat.lt_or_ge n (2 ^ 53) with hsmall | hlarge
  · have hlog := log2_le_of_fits hn hsmall
    have hshape := ofFloat_pack (significand_pos hn) (e := n.log2 - 52) (log2_significand hn hsmall) (by omega)
      (by omega)
    rw [← unpackedWhole_of_ne hn, ← ofNat_eq_pack hsmall] at hshape
    refine ⟨_, hshape, log2_significand hn hsmall, ?_, ?_⟩
    · have hup : ((n.log2 : Int) - 52).toNat = 0 := by omega
      have hdown : (-((n.log2 : Int) - 52)).toNat = 52 - n.log2 := by omega
      simp only [Dyadic.numerator, Dyadic.denominator, hup, hdown, pow2_eq, nearestWhole_of_fits hsmall,
        significand, Nat.pow_zero, Nat.mul_one]
    · rw [decide_eq_true (show -1074 < (n.log2 : Int) - 52 by omega), Bool.and_true]
  · obtain ⟨m, j, hlog, hj, -, hvalue⟩ := exists_leading hlarge
    have hm : 0 < m := Nat.pos_of_ne_zero (by rintro rfl; exact absurd hlog (by decide))
    have hspare : spareDigits n ≤ 11 := by
      have hword : n.log2 < 64 := (Nat.log2_lt hn).2 h
      rw [spareDigits]
      omega
    have hshape := ofFloat_pack hm (e := ((j + spareDigits n : Nat) : Int)) hlog (by omega) (by omega)
    rw [← ofNat_large hlarge hlog hm hvalue] at hshape
    refine ⟨_, hshape, hlog, ?_, ?_⟩
    · have hdown : (-((j + spareDigits n : Nat) : Int)).toNat = 0 := by omega
      simp only [Dyadic.numerator, Dyadic.denominator, Int.toNat_natCast, hdown, pow2_eq, hvalue, Nat.pow_zero,
        Nat.mul_one]
    · rw [decide_eq_true (show -1074 < ((j + spareDigits n : Nat) : Int) by omega), Bool.and_true]

end Shapes
end SchedLedger
