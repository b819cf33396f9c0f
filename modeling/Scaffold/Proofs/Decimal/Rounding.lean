import Scaffold.Decimal.Shortest
import Mathlib.Tactic.Common
import Mathlib.Tactic.Ring

/-!
# Rounding to double precision

A quotient inside the rounding interval of a magnitude is rounded to that magnitude
(`Binary64.ofRatio_of_isInside`).  All of it is arithmetic of natural numbers: quotients are compared by
multiplying out.
-/

namespace Scaffold.Decimal

/-- A quotient is rounded to a number that is no further away than a half, and even if it is exactly a
half away. -/
theorem roundHalfEven_eq {numerator denominator target : Nat} (positive : 0 < denominator)
    (lower : 2 * (target * denominator) ≤ 2 * numerator + denominator)
    (upper : 2 * numerator ≤ 2 * (target * denominator) + denominator)
    (nearer : target % 2 = 0 ∨ (2 * (target * denominator) < 2 * numerator + denominator
      ∧ 2 * numerator < 2 * (target * denominator) + denominator)) :
    roundHalfEven numerator denominator = target := by
  have split := Nat.div_add_mod numerator denominator
  have small := Nat.mod_lt numerator positive
  unfold roundHalfEven
  dsimp only
  generalize numerator / denominator = quotient at split ⊢
  generalize numerator % denominator = remainder at split small ⊢
  -- The target is the quotient or the number above it.
  have notAbove : target ≤ quotient + 1 := by
    by_contra above
    have far : (quotient + 2) * denominator ≤ target * denominator := Nat.mul_le_mul_right _ (by omega)
    rw [Nat.add_mul, Nat.mul_comm quotient] at far
    omega
  have notBelow : quotient ≤ target := by
    by_contra below
    have far : (target + 1) * denominator ≤ quotient * denominator := Nat.mul_le_mul_right _ (by omega)
    rw [Nat.add_mul, Nat.mul_comm quotient] at far
    omega
  rcases Nat.eq_or_lt_of_le notBelow with rfl | above
  · rw [Nat.mul_comm] at lower upper nearer
    grind
  · obtain rfl : target = quotient + 1 := by omega
    rw [Nat.add_mul, Nat.mul_comm quotient] at lower upper nearer
    grind

/-- A quotient is rounded to a number that is at most a half away. -/
theorem roundHalfEven_near (numerator : Nat) {denominator : Nat} (positive : 0 < denominator) :
    2 * (roundHalfEven numerator denominator * denominator) ≤ 2 * numerator + denominator
      ∧ 2 * numerator ≤ 2 * (roundHalfEven numerator denominator * denominator) + denominator := by
  have split := Nat.div_add_mod numerator denominator
  have small := Nat.mod_lt numerator positive
  have rounded : roundHalfEven numerator denominator = numerator / denominator
        ∧ 2 * (numerator % denominator) ≤ denominator
      ∨ roundHalfEven numerator denominator = numerator / denominator + 1
        ∧ denominator ≤ 2 * (numerator % denominator) := by
    unfold roundHalfEven
    dsimp only
    split
    · omega
    · split
      · omega
      · split <;> omega
  rcases rounded with ⟨same, near⟩ | ⟨same, near⟩
  · rw [same, Nat.mul_comm (numerator / denominator)]
    omega
  · rw [same, Nat.add_mul, Nat.mul_comm (numerator / denominator)]
    omega

namespace Binary64

/-- The scale of a quotient leaves less than 54 bits, and 53 unless it is the smallest. -/
theorem scaleOf_spec {numerator denominator : Nat} (positive : 0 < numerator)
    (bottom : 0 < denominator) :
    numerator * 2 ^ 1074 < denominator * 2 ^ (53 + scaleOf numerator denominator)
      ∧ (scaleOf numerator denominator = 0
        ∨ denominator * 2 ^ (52 + scaleOf numerator denominator) ≤ numerator * 2 ^ 1074) := by
  have topLower : 2 ^ numerator.log2 ≤ numerator := Nat.log2_self_le (by omega)
  have topUpper : numerator < 2 ^ (numerator.log2 + 1) := Nat.lt_log2_self
  have bottomLower : 2 ^ denominator.log2 ≤ denominator := Nat.log2_self_le (by omega)
  have bottomUpper : denominator < 2 ^ (denominator.log2 + 1) := Nat.lt_log2_self
  -- Where the estimate stands against the bits of both sides.
  obtain ⟨estimate, atLeast, exact, same⟩ : ∃ estimate : Nat,
      numerator.log2 + 1022 ≤ denominator.log2 + estimate
        ∧ (estimate = 0 ∨ denominator.log2 + estimate = numerator.log2 + 1022)
        ∧ scaleOf numerator denominator
          = if numerator * 2 ^ 1074 < denominator * 2 ^ (52 + estimate) then estimate - 1
            else estimate :=
    ⟨Int.toNat ((numerator.log2 : Int) - denominator.log2 - 52 + 1074), by omega, by omega,
      by
        unfold scaleOf
        generalize (1074 : Nat) = smallest
        simp only [Nat.pow_eq, Int.ofNat_eq_natCast]⟩
  rw [same]
  -- The power of two is not to be evaluated.
  generalize smallest : (1074 : Nat) = least
  split
  next larger =>
    constructor
    · refine larger.trans_le (Nat.mul_le_mul_left _ (Nat.pow_le_pow_right (by decide) (by omega)))
    · by_cases zero : estimate - 1 = 0
      · exact .inl zero
      · refine .inr ?_
        calc denominator * 2 ^ (52 + (estimate - 1))
            ≤ 2 ^ (denominator.log2 + 1) * 2 ^ (52 + (estimate - 1)) :=
              Nat.mul_le_mul_right _ bottomUpper.le
          _ = 2 ^ numerator.log2 * 2 ^ least := by
              rw [← Nat.pow_add, ← Nat.pow_add]
              congr 1
              omega
          _ ≤ numerator * 2 ^ least := Nat.mul_le_mul_right _ topLower
  next under =>
    refine ⟨?_, .inr (Nat.not_lt.mp under)⟩
    calc numerator * 2 ^ least
        < 2 ^ (numerator.log2 + 1) * 2 ^ least :=
          Nat.mul_lt_mul_of_pos_right topUpper (Nat.pow_pos (by decide))
      _ = 2 ^ (numerator.log2 + 1 + least) := (Nat.pow_add ..).symm
      _ ≤ 2 ^ (denominator.log2 + (53 + estimate)) := Nat.pow_le_pow_right (by decide) (by omega)
      _ = 2 ^ denominator.log2 * 2 ^ (53 + estimate) := Nat.pow_add ..
      _ ≤ denominator * 2 ^ (53 + estimate) := Nat.mul_le_mul_right _ bottomLower

/-- The distance, in quarters, from a significand down to the end of its rounding interval. -/
def lowerGap (rank : Nat) : Nat := if rank % binade == 0 && 2 * binade ≤ rank then 1 else 2

/-- A rank is its scale in binades and its significand. -/
theorem rank_eq (rank : Nat) : rank = scale rank * binade + significand rank := by
  unfold scale significand binade
  split <;> omega

/-- A significand has at most 53 bits. -/
theorem significand_lt (rank : Nat) : significand rank < 2 * binade := by
  unfold significand binade
  split <;> omega

/-- A positive magnitude has a positive significand. -/
theorem significand_pos {rank : Nat} (positive : 0 < rank) : 0 < significand rank := by
  unfold significand binade
  split <;> omega

/-- A significand has 53 bits unless the scale is the smallest. -/
theorem scale_eq_zero_or (rank : Nat) : scale rank = 0 ∨ binade ≤ significand rank := by
  unfold scale significand binade
  split <;> omega

/-- The gap is one quarter just above a power of two, and else two quarters. -/
theorem lowerGap_spec (rank : Nat) :
    (lowerGap rank = 1 ∧ significand rank = binade) ∨
      (lowerGap rank = 2 ∧ (significand rank = binade → scale rank = 0)) := by
  unfold lowerGap scale significand binade
  split
  next narrow =>
    simp only [Bool.and_eq_true, beq_iff_eq, decide_eq_true_eq] at narrow
    refine .inl ⟨rfl, ?_⟩
    rw [if_neg (by omega)]
    omega
  next wide =>
    simp only [Bool.and_eq_true, beq_iff_eq, decide_eq_true_eq, not_and] at wide
    refine .inr ⟨rfl, ?_⟩
    split <;> omega

/-- A quotient lies inside the rounding interval of a magnitude; all is multiplied by four times the
denominator and the power of two of the smallest scale. -/
structure IsInside (rank numerator denominator : Nat) : Prop where
  lower : (4 * significand rank - lowerGap rank) * (2 ^ scale rank * denominator)
    ≤ 4 * (numerator * 2 ^ 1074)
  upper : 4 * (numerator * 2 ^ 1074)
    ≤ (4 * significand rank + 2) * (2 ^ scale rank * denominator)
  /-- The ends belong to the interval of an even significand only. -/
  closed : significand rank % 2 = 0
    ∨ ((4 * significand rank - lowerGap rank) * (2 ^ scale rank * denominator)
        < 4 * (numerator * 2 ^ 1074)
      ∧ 4 * (numerator * 2 ^ 1074)
        < (4 * significand rank + 2) * (2 ^ scale rank * denominator))

/-- A power of two with the bits of a binade, multiplied out. -/
theorem mul_two_pow (denominator scale : Nat) :
    denominator * 2 ^ (52 + scale) = binade * (2 ^ scale * denominator) := by
  rw [Nat.pow_add, show (2 : Nat) ^ 52 = binade by decide]
  ring

variable {rank numerator denominator : Nat}

/-- Only positive quotients lie inside the interval of a positive magnitude. -/
theorem IsInside.positive (inside : IsInside rank numerator denominator) (positive : 0 < rank)
    (bottom : 0 < denominator) : 0 < numerator := by
  have quarters : 0 < 4 * significand rank - lowerGap rank := by
    have := significand_pos positive
    rcases lowerGap_spec rank with ⟨gap, _⟩ | ⟨gap, _⟩ <;> omega
  have unit : 0 < 2 ^ scale rank * denominator := Nat.mul_pos (Nat.pow_pos (by decide)) bottom
  refine Nat.pos_of_ne_zero fun zero => ?_
  have lower := (Nat.mul_pos quarters unit).trans_le inside.lower
  rw [zero, Nat.zero_mul, Nat.mul_zero] at lower
  exact Nat.lt_irrefl 0 lower

/-- Whether a quotient lies inside depends on its value only. -/
theorem IsInside.congr {otherNumerator otherDenominator : Nat}
    (inside : IsInside rank numerator denominator) (bottom : 0 < denominator)
    (otherBottom : 0 < otherDenominator)
    (same : numerator * otherDenominator = otherNumerator * denominator) :
    IsInside rank otherNumerator otherDenominator := by
  generalize smallest : (2 : Nat) ^ 1074 = power at *
  have left : ∀ factor, factor * (2 ^ scale rank * otherDenominator) * denominator
      = factor * (2 ^ scale rank * denominator) * otherDenominator := fun factor => by ring
  have right : 4 * (otherNumerator * power) * denominator
      = 4 * (numerator * power) * otherDenominator := by
    calc 4 * (otherNumerator * power) * denominator
        = 4 * power * (otherNumerator * denominator) := by ring
      _ = 4 * (numerator * power) * otherDenominator := by rw [← same]; ring
  obtain ⟨lower, upper, closed⟩ := inside
  rw [smallest] at lower upper closed
  constructor <;> rw [smallest]
  · refine Nat.le_of_mul_le_mul_right ?_ bottom
    rw [left, right]
    exact Nat.mul_le_mul_right _ lower
  · refine Nat.le_of_mul_le_mul_right ?_ bottom
    rw [left, right]
    exact Nat.mul_le_mul_right _ upper
  · refine closed.imp_right fun ⟨above, below⟩ => ⟨?_, ?_⟩
    · refine Nat.lt_of_mul_lt_mul_right (a := denominator) ?_
      rw [left, right]
      exact Nat.mul_lt_mul_of_pos_right above otherBottom
    · refine Nat.lt_of_mul_lt_mul_right (a := denominator) ?_
      rw [left, right]
      exact Nat.mul_lt_mul_of_pos_right below otherBottom

/-- The scale of a quotient inside the rounding interval of a magnitude is not above that of the magnitude:
the quotient lies below the next binade. -/
theorem scaleOf_le_scale (positive : 0 < rank) (bottom : 0 < denominator)
    (inside : IsInside rank numerator denominator) :
    scaleOf numerator denominator ≤ scale rank := by
  have above := (scaleOf_spec (inside.positive positive bottom) bottom).2
  have upper := inside.upper
  have unit : 0 < 2 ^ scale rank * denominator := Nat.mul_pos (Nat.pow_pos (by decide)) bottom
  have narrow := significand_lt rank
  generalize numerator * 2 ^ 1074 = value at above upper
  generalize scaleOf numerator denominator = found at above ⊢
  by_contra larger
  have large := above.resolve_left (by omega)
  have step : denominator * 2 ^ (52 + (scale rank + 1)) ≤ denominator * 2 ^ (52 + found) :=
    Nat.mul_le_mul_left _ (Nat.pow_le_pow_right (by decide) (by omega))
  rw [mul_two_pow, Nat.pow_succ, Nat.mul_right_comm] at step
  have top : (4 * significand rank + 2) * (2 ^ scale rank * denominator)
      ≤ (8 * binade - 2) * (2 ^ scale rank * denominator) := Nat.mul_le_mul_right _ (by omega)
  generalize 2 ^ scale rank * denominator = size at unit upper step top
  unfold binade at step top
  omega

/-- A quotient inside the rounding interval of a magnitude has its scale, or the one below if it lies
just below a power of two. -/
theorem scaleOf_of_isInside (positive : 0 < rank) (bottom : 0 < denominator)
    (inside : IsInside rank numerator denominator) :
    scaleOf numerator denominator = scale rank
      ∨ (scaleOf numerator denominator + 1 = scale rank ∧ significand rank = binade
        ∧ numerator * 2 ^ 1074 < binade * (2 ^ scale rank * denominator)) := by
  have notAbove := scaleOf_le_scale positive bottom inside
  have below := (scaleOf_spec (inside.positive positive bottom) bottom).1
  have lower := inside.lower
  have unit : 0 < 2 ^ scale rank * denominator := Nat.mul_pos (Nat.pow_pos (by decide)) bottom
  have gap := lowerGap_spec rank
  generalize numerator * 2 ^ 1074 = value at below lower ⊢
  generalize scaleOf numerator denominator = found at below notAbove ⊢
  rcases Nat.eq_or_lt_of_le notAbove with same | under
  · exact .inl same
  · right
    have bits := (scale_eq_zero_or rank).resolve_left (by omega)
    have step : denominator * 2 ^ (53 + found) ≤ denominator * 2 ^ (52 + scale rank) :=
      Nat.mul_le_mul_left _ (Nat.pow_le_pow_right (by decide) (by omega))
    rw [mul_two_pow] at step
    -- The significand is the smallest one: any other would put the value into the binade.
    have least : significand rank = binade := by
      by_contra other
      have bottom : (4 * binade + 2) * (2 ^ scale rank * denominator)
          ≤ (4 * significand rank - lowerGap rank) * (2 ^ scale rank * denominator) :=
        Nat.mul_le_mul_right _ (by omega)
      generalize 2 ^ scale rank * denominator = size at unit lower step bottom
      unfold binade at step bottom
      omega
    refine ⟨?_, least, by omega⟩
    by_contra lowerStill
    have step : denominator * 2 ^ (52 + (found + 1)) * 2 ≤ denominator * 2 ^ (52 + scale rank) := by
      rw [Nat.mul_assoc, ← Nat.pow_succ]
      exact Nat.mul_le_mul_left _ (Nat.pow_le_pow_right (by decide) (by omega))
    have same : 52 + (found + 1) = 53 + found := by omega
    rw [same, mul_two_pow] at step
    rw [least, (gap.resolve_right (by omega)).1] at lower
    generalize 2 ^ scale rank * denominator = size at unit lower step
    unfold binade at lower step
    omega

/-- The rounded significand of a quotient inside the rounding interval of a magnitude, at the scale of the
quotient, makes up the rank of the magnitude. -/
theorem rounded_of_isInside (positive : 0 < rank) (bottom : 0 < denominator)
    (inside : IsInside rank numerator denominator) :
    scaleOf numerator denominator * binade
      + roundHalfEven (numerator * 2 ^ 1074) (denominator * 2 ^ scaleOf numerator denominator)
      = rank := by
  have size : 0 < denominator * 2 ^ scaleOf numerator denominator :=
    Nat.mul_pos bottom (Nat.pow_pos (by decide))
  have gap := lowerGap_spec rank
  have scales := scaleOf_of_isInside positive bottom inside
  obtain ⟨lower, upper, closed⟩ := inside
  have whole := rank_eq rank
  generalize numerator * 2 ^ 1074 = value at lower upper closed scales ⊢
  rcases scales with same | ⟨below, least, under⟩
  · rw [same] at size ⊢
    rw [Nat.mul_comm] at size
    rw [Nat.mul_comm denominator]
    generalize 2 ^ scale rank * denominator = unit at size lower upper closed ⊢
    rw [Nat.sub_mul, Nat.mul_assoc] at lower closed
    rw [Nat.add_mul, Nat.mul_assoc] at upper closed
    have rounds : roundHalfEven value unit = significand rank := by
      refine roundHalfEven_eq size ?_ ?_ ?_
      · rcases gap with ⟨gap, _⟩ | ⟨gap, _⟩ <;> rw [gap] at lower <;> omega
      · omega
      · rcases gap with ⟨gap, _⟩ | ⟨gap, _⟩ <;> rw [gap] at closed <;> omega
    rw [rounds]
    exact whole.symm
  · -- The value lies a quarter or less below a power of two, and is rounded up to it.
    generalize scaleOf numerator denominator = found at below size ⊢
    have double : 2 ^ scale rank * denominator = 2 * (denominator * 2 ^ found) := by
      rw [← below, Nat.pow_succ]
      ring
    rw [double] at lower under
    rw [least] at lower whole
    rw [(gap.resolve_right (by omega)).1] at lower
    generalize denominator * 2 ^ found = unit at size lower under ⊢
    have rounds : roundHalfEven value unit = 2 * binade := by
      unfold binade at lower under ⊢
      exact roundHalfEven_eq size (by omega) (by omega) (.inl (by decide))
    rw [rounds]
    unfold binade at whole ⊢
    omega

/-- A quotient inside the rounding interval of a magnitude is rounded to it. -/
theorem ofRatio_of_isInside (positive : 0 < rank) (bottom : 0 < denominator)
    (inside : IsInside rank numerator denominator) (negative : Bool) :
    ofRatio negative numerator denominator = ofRank negative rank := by
  have top := inside.positive positive bottom
  have rounded := rounded_of_isInside positive bottom inside
  unfold ofRatio
  rw [if_neg (by simpa using top.ne')]
  dsimp only
  generalize (1074 : Nat) = least at rounded ⊢
  simp only [Nat.pow_eq]
  rw [rounded]

end Binary64

end Scaffold.Decimal
