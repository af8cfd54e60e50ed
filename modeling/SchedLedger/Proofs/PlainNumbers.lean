import SchedLedger.Decimal.Shortest
import SchedLedger.Proofs.RoundedFloats

/-! Whole numbers in print. The shortest decimal of a float that stands for a whole number is a whole number itself,
one of those that are rounded to the float. Up to 2^53 that is the number alone; beyond, zeros may stand in for digits
that make no difference to the float. -/

namespace SchedLedger.Decimal

section Digits

theorem digits_mul_ten {c : Nat} (hc : c ≠ 0) : digits (c * 10) = digits c ++ ['0'] := by
  have hlast := Nat.toDigits_append_toDigits (b := 10) (d := 0) (by decide) (Nat.pos_of_ne_zero hc) (by decide)
  rw [digits, digits, Nat.mul_comm, ← Nat.add_zero (10 * c), ← hlast]
  rfl

theorem digits_mul_pow {c : Nat} (hc : c ≠ 0) (j : Nat) : digits (c * 10 ^ j) = digits c ++ List.replicate j '0' := by
  induction j with
  | zero => rw [Nat.pow_zero, Nat.mul_one, List.replicate_zero, List.append_nil]
  | succ j ih =>
    have hne : c * 10 ^ j ≠ 0 := Nat.mul_ne_zero hc (Nat.pow_pos (by decide)).ne'
    rw [Nat.pow_succ, ← Nat.mul_assoc, digits_mul_ten hne, ih, List.append_assoc, List.replicate_succ']

end Digits

section Grids

variable {x : Dyadic} {v : Nat}

/-- The gap between a float and the next greater one, over the denominator. -/
def Dyadic.gapAbove (x : Dyadic) : Nat :=
  2 ^ x.exponent.toNat

/-- Four times half the gap below a float: a power of two may have a narrower one. -/
def Dyadic.roomBelow (x : Dyadic) : Nat :=
  if x.narrowBelow then x.gapAbove else 2 * x.gapAbove

/-- The number `q` lies between the halves of the gaps around the float of `v`, and on an end only if the float is
even. -/
structure Dyadic.Near (x : Dyadic) (v q : Nat) : Prop where
  low : 4 * (v * x.denominator) ≤ 4 * (q * x.denominator) + x.roomBelow
  high : 4 * (q * x.denominator) ≤ 4 * (v * x.denominator) + 2 * x.gapAbove
  inside : x.mantissa % 2 = 0 ∨
    (4 * (v * x.denominator) < 4 * (q * x.denominator) + x.roomBelow ∧
      4 * (q * x.denominator) < 4 * (v * x.denominator) + 2 * x.gapAbove)

theorem Dyadic.gapAbove_pos (x : Dyadic) : 0 < x.gapAbove :=
  Nat.two_pow_pos _

theorem Dyadic.roomBelow_pos (x : Dyadic) : 0 < x.roomBelow := by
  have hpos := x.gapAbove_pos
  rw [roomBelow]
  split <;> omega

theorem Dyadic.near_self (x : Dyadic) (v : Nat) : x.Near v v := by
  have hroom := x.roomBelow_pos
  have hgap := x.gapAbove_pos
  constructor <;> omega

theorem Dyadic.Stands.mul_gapAbove (h : x.Stands v) : x.mantissa * x.gapAbove = v * x.denominator :=
  h.value

theorem Dyadic.Stands.mantissa_range (h : x.Stands v) : 2 ^ 52 ≤ x.mantissa ∧ x.mantissa < 2 ^ 53 := by
  have hne : x.mantissa ≠ 0 := by
    intro hzero
    have hlog := h.log2
    rw [hzero] at hlog
    exact absurd hlog (by decide)
  exact (Nat.log2_eq_iff hne).1 h.log2

theorem Dyadic.Stands.gapAbove_le (h : x.Stands v) : 2 ^ 52 * x.gapAbove ≤ v * x.denominator := by
  rw [← h.mul_gapAbove]
  exact Nat.mul_le_mul_right _ h.mantissa_range.1

theorem Dyadic.Stands.pos (h : x.Stands v) : 0 < v := by
  have hgap := h.gapAbove_le
  have hpos := x.gapAbove_pos
  exact Nat.pos_of_mul_pos_right (show 0 < v * x.denominator by omega)

theorem Dyadic.Stands.whole_of_large (h : x.Stands v) (hlarge : 2 ^ 53 ≤ v) :
    x.denominator = 1 ∧ 1 ≤ x.exponent.toNat := by
  have hexponent : 0 < x.exponent := by
    by_contra hneg
    have hone : x.gapAbove = 1 := by
      rw [gapAbove, show x.exponent.toNat = 0 by omega, Nat.pow_zero]
    have hvalue := h.mul_gapAbove
    have hmantissa := h.mantissa_range.2
    have hle := Nat.le_mul_of_pos_right v x.denominator_pos
    rw [hone, Nat.mul_one] at hvalue
    omega
  refine ⟨?_, by omega⟩
  rw [denominator, show (-x.exponent).toNat = 0 by omega]
  rfl

theorem Dyadic.roomBelow_le (x : Dyadic) : x.roomBelow ≤ 2 * x.gapAbove := by
  rw [roomBelow]
  split <;> omega

/-- The multiples of a power of ten that are rounded to a float. -/
theorem owns_iff (h : x.Stands v) (j c : Nat) : (Grid.of x j).owns x c = true ↔ x.Near v (c * 10 ^ j) := by
  have hvalue : 4 * x.mantissa * x.gapAbove = 4 * (v * x.denominator) := by
    rw [Nat.mul_assoc, h.mul_gapAbove]
  have hlow : (4 * x.mantissa - if x.narrowBelow then 1 else 2) * x.gapAbove =
      4 * (v * x.denominator) - x.roomBelow := by
    rw [Nat.sub_mul, hvalue, Dyadic.roomBelow]
    split <;> omega
  have hhigh : (4 * x.mantissa + 2) * x.gapAbove = 4 * (v * x.denominator) + 2 * x.gapAbove := by
    rw [Nat.add_mul, hvalue]
  have hunit : (Grid.of x j).unit = x.gapAbove := by
    change 2 ^ x.exponent.toNat * 10 ^ (-(j : Int)).toNat = _
    rw [show (-(j : Int)).toNat = 0 by omega, Nat.pow_zero, Nat.mul_one]
    rfl
  have hhere : c * (Grid.of x j).step = 4 * (c * 10 ^ j * x.denominator) := by
    change c * (4 * 2 ^ (-x.exponent).toNat * 10 ^ (j : Int).toNat) = 4 * (c * 10 ^ j * 2 ^ (-x.exponent).toNat)
    rw [Int.toNat_natCast]
    ring
  have hroom : x.roomBelow ≤ 4 * (v * x.denominator) := by
    have hgap := h.gapAbove_le
    have hless := x.roomBelow_le
    omega
  -- what is compared on the grid is what is compared over the denominator of the float
  simp only [Grid.owns, hunit, hhere, hlow, hhigh]
  split
  · next heven =>
    simp only [Bool.and_eq_true, decide_eq_true_eq]
    constructor
    · rintro ⟨hl, hh⟩
      exact ⟨by omega, hh, .inl heven⟩
    · rintro ⟨hl, hh, -⟩
      exact ⟨by omega, hh⟩
  · next hodd =>
    simp only [Bool.and_eq_true, decide_eq_true_eq]
    constructor
    · rintro ⟨hl, hh⟩
      exact ⟨by omega, by omega, .inr ⟨by omega, hh⟩⟩
    · rintro ⟨hl, hh, hin⟩
      have hin := hin.resolve_left hodd
      exact ⟨by omega, hin.2⟩

/-- On the grid of a power of ten the float stands at or behind the multiple that its number has without rest. -/
theorem below_eq (h : x.Stands v) (j : Nat) :
    4 * x.mantissa * (Grid.of x j).unit / (Grid.of x j).step = v / 10 ^ j := by
  have hunit : 4 * x.mantissa * (Grid.of x j).unit = 4 * x.denominator * v := by
    change 4 * x.mantissa * (2 ^ x.exponent.toNat * 10 ^ (-(j : Int)).toNat) = _
    rw [show (-(j : Int)).toNat = 0 by omega, Nat.pow_zero, Nat.mul_one, Nat.mul_assoc]
    have hvalue := h.mul_gapAbove
    rw [Dyadic.gapAbove] at hvalue
    rw [hvalue]
    ring
  have hstep : (Grid.of x j).step = 4 * x.denominator * 10 ^ j := rfl
  have hpos : 0 < 4 * x.denominator := Nat.mul_pos (by decide) x.denominator_pos
  rw [hunit, hstep, Nat.mul_div_mul_left _ _ hpos]

theorem owns_of_pick? {g : Grid} {c : Nat} (h : g.pick? x = some c) : g.owns x c = true := by
  have hround := roundDiv_bounds (4 * x.mantissa * g.unit) g.step
  simp only [Grid.pick?] at h
  split at h
  · cases h
  · next hbelow _ => exact Option.some.inj h ▸ hbelow
  · next _ habove => exact Option.some.inj h ▸ habove
  · next hbelow habove =>
    obtain rfl := Option.some.inj h
    rcases Nat.eq_or_lt_of_le hround.1 with heq | hlt
    · rwa [← heq]
    · rwa [show roundDiv (4 * x.mantissa * g.unit) g.step = 4 * x.mantissa * g.unit / g.step + 1 by omega]

theorem isSome_pick? {g : Grid} (h : g.owns x (4 * x.mantissa * g.unit / g.step) = true ∨
    g.owns x (4 * x.mantissa * g.unit / g.step + 1) = true) : (g.pick? x).isSome := by
  simp only [Grid.pick?]
  split
  · next hbelow habove => simp [hbelow, habove] at h
  · rfl
  · rfl
  · rfl

theorem exists_searchDigits {k : Int} {more tried t : Nat} (htried : tried ≤ t) (ht : t < tried + more)
    (hpick : ((Grid.of x (k - t)).pick? x).isSome) :
    ∃ s c, s ≤ t ∧ searchDigits x k more tried = some ⟨c, k - s⟩ ∧ (Grid.of x (k - s)).owns x c = true := by
  induction more generalizing tried with
  | zero => omega
  | succ more ih =>
    rw [searchDigits]
    cases hhere : (Grid.of x (k - tried)).pick? x with
    | some c => exact ⟨tried, c, htried, rfl, owns_of_pick? hhere⟩
    | none =>
      have hne : tried ≠ t := by
        rintro rfl
        simp [hhere] at hpick
      exact ih (by omega) (by omega)

theorem owns_next (h : x.Stands v) {j : Nat} (hgap : 4 * (10 ^ j * x.denominator) < 2 * x.gapAbove + x.roomBelow) :
    (Grid.of x j).owns x (v / 10 ^ j) = true ∨ (Grid.of x j).owns x (v / 10 ^ j + 1) = true := by
  rw [owns_iff h, owns_iff h]
  have hsplit : v * x.denominator = v / 10 ^ j * 10 ^ j * x.denominator + v % 10 ^ j * x.denominator := by
    rw [← Nat.add_mul, Nat.div_add_mod']
  have hnext : (v / 10 ^ j + 1) * 10 ^ j * x.denominator =
      v / 10 ^ j * 10 ^ j * x.denominator + 10 ^ j * x.denominator := by
    rw [Nat.add_one_mul, Nat.add_mul]
  have hrest : v % 10 ^ j * x.denominator < 10 ^ j * x.denominator :=
    Nat.mul_lt_mul_of_pos_right (Nat.mod_lt v (Nat.pow_pos (by decide))) x.denominator_pos
  have hgapAbove := x.gapAbove_pos
  have hroom := x.roomBelow_pos
  rcases Nat.lt_or_ge (4 * (v % 10 ^ j * x.denominator)) x.roomBelow with hclose | hfar
  · exact .inl ⟨by omega, by omega, .inr ⟨by omega, by omega⟩⟩
  · exact .inr ⟨by omega, by omega, .inr ⟨by omega, by omega⟩⟩

/-- A number of eighteen or nineteen digits is next to a multiple of ten or a hundred that is rounded to the same
float. -/
theorem owns_next_of_long (h : x.Stands v) {j : Nat} (hj : j = 1 ∨ j = 2) (hlong : 10 ^ (16 + j) ≤ v) :
    (Grid.of x j).owns x (v / 10 ^ j) = true ∨ (Grid.of x j).owns x (v / 10 ^ j + 1) = true := by
  have hvalue := h.mul_gapAbove
  have hmantissa := h.mantissa_range.2
  have hleast : 10 ^ 17 ≤ v := (Nat.pow_le_pow_right (by decide) (by omega)).trans hlong
  obtain ⟨hwhole, -⟩ := h.whole_of_large (by omega)
  rw [hwhole, Nat.mul_one] at hvalue
  have hgap : v < 2 ^ 53 * x.gapAbove := hvalue ▸ Nat.mul_lt_mul_of_pos_right hmantissa x.gapAbove_pos
  -- the gap is a power of two, so it is at least the next one
  have hnext : ∀ k, 2 ^ k < x.gapAbove → 2 ^ (k + 1) ≤ x.gapAbove := fun k hk =>
    Nat.pow_le_pow_right (by decide) ((Nat.pow_lt_pow_iff_right (by decide)).1 hk)
  refine owns_next h ?_
  rw [hwhole, Dyadic.roomBelow]
  rcases hj with rfl | rfl
  · have hwide := hnext 3 (by omega)
    split <;> omega
  · have hwide := hnext 6 (by omega)
    split
    · next hnarrow =>
      -- a power of two with a narrow gap below it is large enough for a wider one
      rw [h.narrow, beq_iff_eq] at hnarrow
      rw [hnarrow] at hvalue
      have hwider := hnext 7 (by omega)
      omega
    · omega

end Grids

section Layout

theorem exists_strip (fuel : Nat) {c : Nat} (hc : c ≠ 0) (j : Nat) :
    ∃ c' j' : Nat, Scaled.strip fuel ⟨c, j⟩ = ⟨c', j'⟩ ∧ c' ≠ 0 ∧ c' * 10 ^ j' = c * 10 ^ j := by
  induction fuel generalizing c j with
  | zero => exact ⟨c, j, rfl, hc, rfl⟩
  | succ fuel ih =>
    rw [Scaled.strip]
    split
    · next hzero =>
      dsimp only at hzero
      obtain ⟨c', j', hstrip, hne, hsame⟩ := ih (c := c / 10) (by omega) (j + 1)
      refine ⟨c', j', hstrip, hne, hsame.trans ?_⟩
      rw [Nat.pow_succ', ← Nat.mul_assoc, Nat.div_mul_cancel (Nat.dvd_of_mod_eq_zero hzero.2)]
    · exact ⟨c, j, rfl, hc, rfl⟩

theorem positional_whole {style : FloatStyle} (hpoint : style.wholePoint = false) {c : Nat} (hc : c ≠ 0) (j : Nat) :
    positional style (digits c) (j + (digits c).length - 1) = digits (c * 10 ^ j) := by
  have hlength : 0 < (digits c).length := Nat.length_toDigits_pos
  have hzeros : ((j : Int) + (digits c).length - 1 + 1 - (digits c).length).toNat = j := by omega
  rw [positional, if_neg (by omega), if_pos (by omega), hpoint, digits_mul_pow hc, zeros, hzeros, if_neg (by decide),
    List.append_nil]

/-- The search for the shortest decimal of a whole number ends with a whole number that is rounded to it. -/
theorem exists_shortest {x : Dyadic} {v : Nat} (h : x.Stands v) (hlong : v < 10 ^ 19) :
    ∃ c j : Nat, shortest x = ⟨c, j⟩ ∧ c ≠ 0 ∧ x.Near v (c * 10 ^ j) := by
  have hmagnitude : magnitude x.numerator x.denominator = (digits v).length := by
    have hle : x.denominator ≤ x.numerator := by
      rw [h.value]
      exact Nat.le_mul_of_pos_left _ h.pos
    rw [magnitude, if_pos hle, h.value, Nat.mul_div_cancel _ x.denominator_pos]
  have hpos : 0 < (digits v).length := Nat.length_toDigits_pos
  have hmost : (digits v).length ≤ 19 := (Nat.length_toDigits_le_iff (by decide) (by decide)).2 hlong
  obtain ⟨s, c, hs, hfound, howns⟩ : ∃ s c, s ≤ (digits v).length ∧
      searchDigits x (digits v).length 17 1 = some ⟨c, (digits v).length - s⟩ ∧
      (Grid.of x ((digits v).length - s)).owns x c = true := by
    rcases Nat.lt_or_ge 17 (digits v).length with hmany | hfew
    · -- the grid of seventeen digits, ten or a hundred apart
      obtain ⟨j, hj⟩ : ∃ j, (digits v).length = 17 + j := ⟨(digits v).length - 17, by omega⟩
      have hleast : 10 ^ (16 + j) ≤ v := by
        by_contra hless
        have hshort := (Nat.length_toDigits_le_iff (by decide) (by omega)).2 (Nat.lt_of_not_le hless)
        change (digits v).length ≤ 16 + j at hshort
        omega
      have hgrid : ((digits v).length : Int) - (17 : Nat) = j := by omega
      obtain ⟨s, c, hs, hfound⟩ := exists_searchDigits (x := x) (k := (digits v).length) (t := 17)
        (show 1 ≤ 17 by decide) (show 17 < 1 + 17 by decide) (isSome_pick? (by
          rw [hgrid, below_eq h]
          exact owns_next_of_long h (by omega) hleast))
      exact ⟨s, c, by omega, hfound⟩
    · -- the grid of all digits, which has the number itself
      have hgrid : ((digits v).length : Int) - (digits v).length = (0 : Nat) := Int.sub_self _
      refine exists_searchDigits hpos (by omega) (isSome_pick? (.inl ?_))
      rw [hgrid, below_eq h, owns_iff h, Nat.pow_zero, Nat.div_one, Nat.mul_one]
      exact x.near_self v
  obtain ⟨j, hj⟩ : ∃ j : Nat, ((digits v).length : Int) - s = j := ⟨(digits v).length - s, by omega⟩
  rw [hj] at hfound howns
  rw [owns_iff h] at howns
  have hc : c ≠ 0 := by
    rintro rfl
    have hlow := howns.low
    have hgap := h.gapAbove_le
    have hroom := x.roomBelow_le
    have hgapAbove := x.gapAbove_pos
    simp only [Nat.zero_mul, Nat.mul_zero, Nat.zero_add] at hlow
    omega
  obtain ⟨c', j', hstrip, hne, hsame⟩ := exists_strip 18 hc j
  refine ⟨c', j', ?_, hne, hsame ▸ howns⟩
  rw [shortest, hmagnitude, hfound, Option.getD_some, hstrip]

theorem exists_layout {x : Dyadic} {v : Nat} (h : x.Stands v) (hlong : v < 10 ^ 19) {style : FloatStyle}
    (hpoint : style.wholePoint = false) (hleast : style.leastPositional ≤ 0)
    (hgreatest : 20 ≤ style.greatestPositional) : ∃ q, layout style x = digits q ∧ x.Near v q := by
  obtain ⟨c, j, hshortest, hc, hnear⟩ := exists_shortest h hlong
  refine ⟨c * 10 ^ j, ?_, hnear⟩
  have hmantissa : x.mantissa ≠ 0 := by
    have hrange := h.mantissa_range.1
    omega
  -- the number is at most twice the one of the float, so it has no more digits than are written out
  have hlength : (digits c).length + j ≤ 20 := by
    have hhigh := hnear.high
    have hgap := h.gapAbove_le
    have hdouble : c * 10 ^ j * x.denominator ≤ 2 * v * x.denominator := by
      rw [Nat.mul_assoc 2]
      omega
    have hless : c * 10 ^ j < 10 ^ 20 := by
      have hle := Nat.le_of_mul_le_mul_right hdouble x.denominator_pos
      omega
    have hshort := (Nat.length_toDigits_le_iff (b := 10) (by decide) (by decide)).2 hless
    change (digits (c * 10 ^ j)).length ≤ 20 at hshort
    rwa [digits_mul_pow hc, List.length_append, List.length_replicate] at hshort
  have hpos : 0 < (digits c).length := Nat.length_toDigits_pos
  simp only [layout, hshortest, if_neg hmantissa]
  rw [if_pos (by omega)]
  exact positional_whole hpoint hc j

end Layout

section Reading

variable {x : Dyadic} {v q : Nat}

/-- Up to 2^53 no other whole number is as near to the float as the number itself. -/
theorem Dyadic.Near.eq_of_fits (hnear : x.Near v q) (h : x.Stands v) (hv : v < 2 ^ 53) : q = v := by
  have hgap : x.gapAbove = 1 := by
    have hle := h.gapAbove_le
    by_contra hne
    have hwide : x.exponent.toNat ≠ 0 := fun hzero => hne (by rw [gapAbove, hzero, Nat.pow_zero])
    have hwhole : x.denominator = 1 := by
      rw [denominator, show (-x.exponent).toNat = 0 by omega]
      rfl
    have hpos := x.gapAbove_pos
    rw [hwhole] at hle
    omega
  have hroom := x.roomBelow_le
  have hlow := hnear.low
  have hhigh := hnear.high
  rw [hgap] at hroom hhigh
  exact Nat.eq_of_mul_eq_mul_right x.denominator_pos (by omega)

theorem spareDigits_eq {k : Nat} (hlow : 2 ^ 52 * 2 ^ k ≤ q) (hhigh : q < 2 ^ 53 * 2 ^ k) : spareDigits q = k := by
  have hpos := Nat.two_pow_pos k
  have hlog : q.log2 = 52 + k := by
    refine (Nat.log2_eq_iff (show q ≠ 0 by omega)).2 ⟨?_, ?_⟩
    · rwa [Nat.pow_add]
    · rwa [Nat.add_right_comm, Nat.pow_add]
  rw [spareDigits, hlog, Nat.add_sub_cancel_left]

theorem Dyadic.Near.nearestWhole_eq (hnear : x.Near v q) (h : x.Stands v) (hv : 2 ^ 53 ≤ v) :
    nearestWhole q = v ∧ 2 ^ 53 ≤ q := by
  obtain ⟨hwhole, hexponent⟩ := h.whole_of_large hv
  obtain ⟨hleast, hless⟩ := h.mantissa_range
  obtain ⟨hlow, hhigh, hinside⟩ := hnear
  have hvalue := h.mul_gapAbove
  have hroom := x.roomBelow_le
  have hgap := x.gapAbove_pos
  rw [hwhole, Nat.mul_one] at hvalue
  simp only [hwhole, Nat.mul_one] at hlow hhigh hinside
  rcases Nat.lt_or_ge q (2 ^ 52 * x.gapAbove) with hbelow | habove
  · -- the float is a power of two, and the number has one binary digit less than it
    have hmantissa : x.mantissa = 2 ^ 52 := by
      by_contra hne
      have hmore : (2 ^ 52 + 1) * x.gapAbove ≤ x.mantissa * x.gapAbove := Nat.mul_le_mul_right _ (by omega)
      omega
    have hnarrow : x.roomBelow = x.gapAbove := by
      rw [roomBelow, h.narrow, hmantissa, beq_self_eq_true, if_pos rfl]
    obtain ⟨k, hk⟩ : ∃ k, x.exponent.toNat = k + 1 := ⟨x.exponent.toNat - 1, by omega⟩
    have hhalf : x.gapAbove = 2 ^ k * 2 := by
      rw [gapAbove, hk, Nat.pow_succ]
    rw [hmantissa] at hvalue
    rw [hnarrow] at hlow
    have hspare : spareDigits q = k := spareDigits_eq (by omega) (by omega)
    have hround : roundDiv q (2 ^ k) = 2 ^ 53 :=
      roundDiv_eq_of_near (Nat.two_pow_pos k) (by omega) (by omega) (.inl (by decide))
    constructor
    · rw [nearestWhole, hspare, hround]
      omega
    · omega
  · have hmost : x.mantissa * x.gapAbove ≤ (2 ^ 53 - 1) * x.gapAbove := Nat.mul_le_mul_right _ (by omega)
    have htwo : 2 ^ 1 ≤ x.gapAbove := Nat.pow_le_pow_right (by decide) hexponent
    have hspare : spareDigits q = x.exponent.toNat := spareDigits_eq habove (by rw [← gapAbove]; omega)
    have hround : roundDiv q x.gapAbove = x.mantissa :=
      roundDiv_eq_of_near hgap (by omega) (by omega) (hinside.imp_right fun hin => ⟨by omega, by omega⟩)
    constructor
    · rw [nearestWhole, hspare, ← gapAbove, hround, hvalue]
    · omega

end Reading

end SchedLedger.Decimal
