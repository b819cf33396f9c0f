import Scaffold.Proofs.Decimal.Digits
import Scaffold.Proofs.Decimal.Rounding

/-!
# Shortest decimals are read back

Among the candidates for the shortest decimal of a magnitude there is always one inside its rounding
interval: the one of seventeen digits lies closer than the end of the interval (`holds_shortest`).  So the
decimal that is found is rounded back to the magnitude.
-/

namespace Scaffold.Decimal

/-- A number is below the power of ten of its digit count. -/
theorem lt_pow_digitCount (number : Nat) : number < 10 ^ digitCount number := by
  unfold digitCount
  split
  next zero =>
    rw [beq_iff_eq.mp zero]
    decide
  next => exact (length_natText_le_iff (List.length_pos_iff.mpr (natText_ne_nil number))).mp (le_refl _)

/-- A quotient is not below the power of ten of its leading digit. -/
theorem leadingPosition_spec {numerator denominator : Nat} (top : 0 < numerator)
    (bottom : 0 < denominator) :
    denominator * 10 ^ (leadingPosition numerator denominator - 1).toNat
      ≤ numerator * 10 ^ (1 - leadingPosition numerator denominator).toNat := by
  unfold leadingPosition
  split
  next large =>
    have quotient : 0 < numerator / denominator := Nat.div_pos large bottom
    have digits : 10 ^ (digitCount (numerator / denominator) - 1) ≤ numerator / denominator := by
      rw [digitCount, if_neg (by simpa using quotient.ne')]
      exact pow_le_of_length_natText quotient
    have unscaled : (1 - (digitCount (numerator / denominator) : Int)).toNat = 0 := by
      have := lt_pow_digitCount (numerator / denominator)
      by_contra positive
      have zero : digitCount (numerator / denominator) = 0 := by omega
      rw [zero, Nat.pow_zero] at this
      omega
    have power : ((digitCount (numerator / denominator) : Int) - 1).toNat
        = digitCount (numerator / denominator) - 1 := by omega
    rw [power, unscaled, Nat.pow_zero, Nat.mul_one, Nat.mul_comm]
    exact (Nat.le_div_iff_mul_le bottom).mp digits
  next small =>
    have below := lt_pow_digitCount ((denominator - 1) / numerator)
    rw [Nat.div_lt_iff_lt_mul top] at below
    generalize digitCount ((denominator - 1) / numerator) = count at below ⊢
    have zero : (1 - Int.ofNat count - 1).toNat = 0 := by simp
    have power : (1 - (1 - Int.ofNat count)).toNat = count := by simp
    rw [zero, power, Nat.pow_zero, Nat.mul_one, Nat.mul_comm numerator]
    omega

/-- The unit of the seventeenth digit of a quotient is at most `10 ^ -16` of it. -/
theorem unit_le {numerator denominator : Nat} (top : 0 < numerator) (bottom : 0 < denominator)
    {exponent : Int} (seventeenth : exponent = leadingPosition numerator denominator - 17) :
    denominator * 10 ^ exponent.toNat * 10 ^ 16 ≤ numerator * 10 ^ (-exponent).toNat := by
  have leading := leadingPosition_spec top bottom
  generalize leadingPosition numerator denominator = position at leading seventeenth
  have powers : 10 ^ (position - 1).toNat * 10 ^ (-exponent).toNat
      = 10 ^ exponent.toNat * 10 ^ 16 * 10 ^ (1 - position).toNat := by
    rw [← Nat.pow_add, ← Nat.pow_add, ← Nat.pow_add]
    congr 1
    omega
  refine Nat.le_of_mul_le_mul_right ?_ (Nat.pow_pos (by decide) : 0 < 10 ^ (1 - position).toNat)
  calc denominator * 10 ^ exponent.toNat * 10 ^ 16 * 10 ^ (1 - position).toNat
      = denominator * 10 ^ (position - 1).toNat * 10 ^ (-exponent).toNat := by
        rw [Nat.mul_assoc _ (10 ^ (position - 1).toNat), powers]
        ring
    _ ≤ numerator * 10 ^ (1 - position).toNat * 10 ^ (-exponent).toNat :=
        Nat.mul_le_mul_right _ leading
    _ = numerator * 10 ^ (-exponent).toNat * 10 ^ (1 - position).toNat := by ring

/-- A decimal between the ends of a rounding interval lies in it. -/
theorem holds_of_between {interval : RoundingInterval} {value : Scientific}
    (above : interval.lower * 10 ^ (-value.exponent).toNat
      < value.coefficient * 10 ^ value.exponent.toNat * interval.denominator)
    (below : value.coefficient * 10 ^ value.exponent.toNat * interval.denominator
      < interval.upper * 10 ^ (-value.exponent).toNat) : interval.holds value = true := by
  unfold RoundingInterval.holds
  simp only [Nat.pow_eq]
  split
  · simp [above.le, below.le]
  · simp [above, below]

/-- The parts of a magnitude as a quotient: the power of two above or below the fraction bar. -/
theorem ratio_eq (rank : Nat) :
    Binary64.ratio rank
      = (Binary64.significand rank * 2 ^ (Binary64.scale rank - 1074), 2 ^ (1074 - Binary64.scale rank)) :=
  rfl

/-- The rounding interval of a magnitude, over the same power of two. -/
theorem ofRank_eq (rank : Nat) :
    RoundingInterval.ofRank rank
      = ⟨(4 * Binary64.significand rank - Binary64.lowerGap rank) * 2 ^ (Binary64.scale rank - 1074),
        (4 * Binary64.significand rank + 2) * 2 ^ (Binary64.scale rank - 1074),
        4 * 2 ^ (1074 - Binary64.scale rank), Binary64.significand rank % 2 == 0⟩ := rfl

/-- The unit of the seventeenth digit is less than half of the gap on either side of a magnitude. -/
theorem unit_lt_gap {rank above below : Nat} {exponent : Int} (positive : 0 < rank) (size : 0 < above)
    (bottom : 0 < below)
    (seventeenth : exponent = leadingPosition (Binary64.significand rank * above) below - 17) :
    2 * (below * 10 ^ exponent.toNat) < Binary64.lowerGap rank * (above * 10 ^ (-exponent).toNat) := by
  have small := unit_le (Nat.mul_pos (Binary64.significand_pos positive) size) bottom seventeenth
  have bound : Binary64.significand rank * (above * 10 ^ (-exponent).toNat)
      ≤ 2 * binade * (above * 10 ^ (-exponent).toNat) :=
    Nat.mul_le_mul_right _ (Binary64.significand_lt rank).le
  have quarterSize : 0 < above * 10 ^ (-exponent).toNat := Nat.mul_pos size (Nat.pow_pos (by decide))
  rw [Nat.mul_assoc (Binary64.significand rank)] at small
  generalize above * 10 ^ (-exponent).toNat = quarter at small bound quarterSize ⊢
  generalize below * 10 ^ exponent.toNat = unit at small ⊢
  unfold binade at bound
  rcases Binary64.lowerGap_spec rank with ⟨gap, least⟩ | ⟨gap, _⟩
  · rw [least, binade] at small
    rw [gap]
    omega
  · rw [gap]
    omega

/-- The seventeen digits that are nearest to a magnitude lie in its rounding interval. -/
theorem holds_seventeen {rank : Nat} (positive : 0 < rank) {exponent : Int}
    (seventeenth : exponent
      = leadingPosition (Binary64.ratio rank).1 (Binary64.ratio rank).2 - 17) :
    (RoundingInterval.ofRank rank).holds
      ⟨roundHalfEven ((Binary64.ratio rank).1 * 10 ^ (-exponent).toNat)
        ((Binary64.ratio rank).2 * 10 ^ exponent.toNat), exponent⟩ = true := by
  rw [ratio_eq] at seventeenth ⊢
  rw [ofRank_eq]
  have numeratorUnit : 0 < 2 ^ (Binary64.scale rank - 1074) := Nat.pow_pos (by decide)
  have denominatorUnit : 0 < 2 ^ (1074 - Binary64.scale rank) := Nat.pow_pos (by decide)
  generalize 2 ^ (Binary64.scale rank - 1074) = above at seventeenth numeratorUnit ⊢
  generalize 2 ^ (1074 - Binary64.scale rank) = below at seventeenth denominatorUnit ⊢
  dsimp only at seventeenth ⊢
  have half := unit_lt_gap positive numeratorUnit denominatorUnit seventeenth
  have grid : 0 < below * 10 ^ exponent.toNat := Nat.mul_pos denominatorUnit (Nat.pow_pos (by decide))
  have atLeast : above * 10 ^ (-exponent).toNat
      ≤ Binary64.significand rank * (above * 10 ^ (-exponent).toNat) :=
    Nat.le_mul_of_pos_left _ (Binary64.significand_pos positive)
  have atMost : Binary64.lowerGap rank * (above * 10 ^ (-exponent).toNat)
      ≤ 2 * (above * 10 ^ (-exponent).toNat) := by
    refine Nat.mul_le_mul_right _ ?_
    rcases Binary64.lowerGap_spec rank with ⟨gap, _⟩ | ⟨gap, _⟩ <;> omega
  rw [Nat.mul_assoc (Binary64.significand rank)]
  obtain ⟨upper, lower⟩ :=
    roundHalfEven_near (Binary64.significand rank * (above * 10 ^ (-exponent).toNat)) grid
  generalize roundHalfEven (Binary64.significand rank * (above * 10 ^ (-exponent).toNat))
    (below * 10 ^ exponent.toNat) = rounded at upper lower ⊢
  have scaled : rounded * 10 ^ exponent.toNat * (4 * below)
      = 4 * (rounded * (below * 10 ^ exponent.toNat)) := by ring
  clear seventeenth
  refine holds_of_between ?_ ?_ <;> dsimp only <;> rw [scaled]
  · have split : (4 * Binary64.significand rank - Binary64.lowerGap rank) * above * 10 ^ (-exponent).toNat
        = 4 * (Binary64.significand rank * (above * 10 ^ (-exponent).toNat))
          - Binary64.lowerGap rank * (above * 10 ^ (-exponent).toNat) := by
      rw [Nat.mul_assoc, Nat.sub_mul, Nat.mul_assoc 4]
    rw [split]
    omega
  · have split : (4 * Binary64.significand rank + 2) * above * 10 ^ (-exponent).toNat
        = 4 * (Binary64.significand rank * (above * 10 ^ (-exponent).toNat))
          + 2 * (above * 10 ^ (-exponent).toNat) := by ring
    rw [split]
    omega

/-- A positive magnitude lies closer to its shortest decimal than to any other magnitude. -/
theorem holds_shortest {rank : Nat} (positive : 0 < rank) :
    (RoundingInterval.ofRank rank).holds (shortest rank) = true := by
  have inside := holds_seventeen positive rfl
  unfold shortest
  dsimp only
  obtain ⟨value, found⟩ : ∃ value, ((List.range 17).flatMap fun count =>
      gridNeighbours (Binary64.ratio rank).1 (Binary64.ratio rank).2
        (leadingPosition (Binary64.ratio rank).1 (Binary64.ratio rank).2 - Int.ofNat (count + 1))).find?
          (RoundingInterval.ofRank rank).holds = some value := by
    rw [← Option.isSome_iff_exists, List.find?_isSome]
    refine ⟨_, ?_, inside⟩
    rw [List.mem_flatMap]
    exact ⟨16, by decide, List.mem_cons_self⟩
  rw [found]
  exact List.find?_some found

/-- A decimal in the rounding interval of a magnitude, as a quotient. -/
theorem isInside_of_holds {rank : Nat} {value : Scientific}
    (holds : (RoundingInterval.ofRank rank).holds value = true) :
    Binary64.IsInside rank (value.coefficient * 10 ^ value.exponent.toNat)
      (10 ^ (-value.exponent).toNat) := by
  rw [ofRank_eq] at holds
  unfold RoundingInterval.holds at holds
  simp only [Nat.pow_eq] at holds
  generalize smallest : (1074 : Nat) = least at holds
  have powers : 2 ^ (Binary64.scale rank - least) * 2 ^ least
      = 2 ^ Binary64.scale rank * 2 ^ (least - Binary64.scale rank) := by
    rw [← Nat.pow_add, ← Nat.pow_add]
    congr 1
    omega
  have binadeUnit : 0 < 2 ^ least := Nat.pow_pos (by decide)
  have denominatorUnit : 0 < 2 ^ (least - Binary64.scale rank) := Nat.pow_pos (by decide)
  generalize 2 ^ (Binary64.scale rank - least) = above at holds powers
  generalize 2 ^ (least - Binary64.scale rank) = below at holds powers denominatorUnit
  have left : ∀ factor, factor * (2 ^ Binary64.scale rank * 10 ^ (-value.exponent).toNat) * below
      = factor * above * 10 ^ (-value.exponent).toNat * 2 ^ least := fun factor => by
    calc factor * (2 ^ Binary64.scale rank * 10 ^ (-value.exponent).toNat) * below
        = factor * 10 ^ (-value.exponent).toNat * (2 ^ Binary64.scale rank * below) := by ring
      _ = factor * above * 10 ^ (-value.exponent).toNat * 2 ^ least := by rw [← powers]; ring
  have right : 4 * (value.coefficient * 10 ^ value.exponent.toNat * 2 ^ least) * below
      = value.coefficient * 10 ^ value.exponent.toNat * (4 * below) * 2 ^ least := by ring
  have atLeast : ∀ factor, factor * (2 ^ Binary64.scale rank * 10 ^ (-value.exponent).toNat)
        ≤ 4 * (value.coefficient * 10 ^ value.exponent.toNat * 2 ^ least)
      ↔ factor * above * 10 ^ (-value.exponent).toNat
        ≤ value.coefficient * 10 ^ value.exponent.toNat * (4 * below) := fun factor => by
    rw [← Nat.mul_le_mul_right_iff denominatorUnit, left, right, Nat.mul_le_mul_right_iff binadeUnit]
  have atMost : ∀ factor, 4 * (value.coefficient * 10 ^ value.exponent.toNat * 2 ^ least)
        ≤ factor * (2 ^ Binary64.scale rank * 10 ^ (-value.exponent).toNat)
      ↔ value.coefficient * 10 ^ value.exponent.toNat * (4 * below)
        ≤ factor * above * 10 ^ (-value.exponent).toNat := fun factor => by
    rw [← Nat.mul_le_mul_right_iff denominatorUnit, left, right, Nat.mul_le_mul_right_iff binadeUnit]
  split at holds
  next even =>
    simp only [Bool.and_eq_true, decide_eq_true_eq, ← atLeast, ← atMost] at holds
    subst smallest
    exact ⟨holds.1, holds.2, .inl (by simpa using even)⟩
  next =>
    simp only [Bool.and_eq_true, decide_eq_true_eq, ← not_le, ← atLeast, ← atMost] at holds
    subst smallest
    rw [not_le, not_le] at holds
    exact ⟨holds.1.le, holds.2.le, .inr holds⟩

/-- The shortest decimal of a positive magnitude is positive. -/
theorem shortest_pos {rank : Nat} (positive : 0 < rank) : 0 < (shortest rank).coefficient :=
  Nat.pos_of_mul_pos_right ((isInside_of_holds (holds_shortest positive)).positive positive
    (Nat.pow_pos (by decide)))

/-- A decimal that is rounded to a positive magnitude does not start far behind the point. -/
theorem le_position {rank coefficient length : Nat} {exponent : Int} (positive : 0 < rank)
    (inside : Binary64.IsInside rank (coefficient * 10 ^ exponent.toNat) (10 ^ (-exponent).toNat))
    (size : coefficient < 10 ^ length) : -1075 ≤ exponent + length := by
  obtain ⟨lower, _, _⟩ := inside
  have significant := Binary64.significand_pos positive
  have gap : 1 ≤ 4 * Binary64.significand rank - Binary64.lowerGap rank := by
    rcases Binary64.lowerGap_spec rank with ⟨gap, _⟩ | ⟨gap, _⟩ <;> omega
  have scaled : 1 ≤ 2 ^ Binary64.scale rank := Nat.pow_pos (by decide)
  generalize smallest : (1074 : Nat) = least at lower
  have near : 10 ^ (-exponent).toNat < 10 ^ (1 + length + exponent.toNat + least) := by
    calc 10 ^ (-exponent).toNat
        = 1 * (1 * 10 ^ (-exponent).toNat) := by ring
      _ ≤ (4 * Binary64.significand rank - Binary64.lowerGap rank)
            * (2 ^ Binary64.scale rank * 10 ^ (-exponent).toNat) :=
          Nat.mul_le_mul gap (Nat.mul_le_mul_right _ scaled)
      _ ≤ 4 * (coefficient * 10 ^ exponent.toNat * 2 ^ least) := lower
      _ ≤ 10 * (coefficient * 10 ^ exponent.toNat * 10 ^ least) :=
          Nat.mul_le_mul (by decide) (Nat.mul_le_mul_left _ (Nat.pow_le_pow_left (by decide) _))
      _ = coefficient * (10 ^ exponent.toNat * 10 ^ (1 + least)) := by ring
      _ < 10 ^ length * (10 ^ exponent.toNat * 10 ^ (1 + least)) :=
          Nat.mul_lt_mul_of_pos_right size (Nat.mul_pos (Nat.pow_pos (by decide))
            (Nat.pow_pos (by decide)))
      _ = 10 ^ (1 + length + exponent.toNat + least) := by ring
  have exponents := (Nat.pow_lt_pow_iff_right (by decide)).mp near
  omega

/-- A decimal that is rounded to a finite magnitude does not start far before the point. -/
theorem position_le {rank coefficient length : Nat} {exponent : Int} (finite : rank < rankCount)
    (inside : Binary64.IsInside rank (coefficient * 10 ^ exponent.toNat) (10 ^ (-exponent).toNat))
    (size : 10 ^ (length - 1) ≤ coefficient) : exponent + length ≤ 2101 := by
  obtain ⟨_, upper, _⟩ := inside
  have narrow := Binary64.significand_lt rank
  have bits : 4 * Binary64.significand rank + 2 ≤ 4 * 2 ^ 53 := by
    unfold binade at narrow
    omega
  have scale : Binary64.scale rank ≤ 2046 := by
    unfold Binary64.scale binade
    unfold rankCount binade at finite
    omega
  generalize smallest : (1074 : Nat) = least at upper
  have scaled : 1 ≤ 2 ^ least := Nat.pow_pos (by decide)
  have near : 10 ^ (length - 1 + exponent.toNat) ≤ 10 ^ (53 + 2046 + (-exponent).toNat) := by
    rw [Nat.pow_add 10 (length - 1), Nat.pow_add 10 (53 + 2046)]
    refine Nat.le_of_mul_le_mul_left ?_ (by decide : 0 < 4)
    generalize biggest : 2046 = largest at scale
    calc 4 * (10 ^ (length - 1) * 10 ^ exponent.toNat)
        = 4 * (10 ^ (length - 1) * 10 ^ exponent.toNat * 1) := by rw [Nat.mul_one]
      _ ≤ 4 * (coefficient * 10 ^ exponent.toNat * 2 ^ least) :=
          Nat.mul_le_mul_left _ (Nat.mul_le_mul (Nat.mul_le_mul_right _ size) scaled)
      _ ≤ (4 * Binary64.significand rank + 2)
            * (2 ^ Binary64.scale rank * 10 ^ (-exponent).toNat) := upper
      _ ≤ 4 * 2 ^ 53 * (2 ^ largest * 10 ^ (-exponent).toNat) :=
          Nat.mul_le_mul bits (Nat.mul_le_mul_right _ (Nat.pow_le_pow_right (by decide) scale))
      _ = 4 * (2 ^ (53 + largest) * 10 ^ (-exponent).toNat) := by rw [Nat.pow_add]; ring
      _ ≤ 4 * (10 ^ (53 + largest) * 10 ^ (-exponent).toNat) :=
          Nat.mul_le_mul_left _ (Nat.mul_le_mul_right _ (Nat.pow_le_pow_left (by decide) _))
  have exponents := (Nat.pow_le_pow_iff_right (by decide)).mp near
  omega

/-- The point of the shortest decimal of a magnitude lies not too far from its digits. -/
theorem position_bounds {rank : Nat} (positive : 0 < rank) (finite : rank < rankCount) :
    -1075 ≤ (shortest rank).exponent + (natText (shortest rank).coefficient).length
      ∧ (shortest rank).exponent + (natText (shortest rank).coefficient).length ≤ 2101 := by
  have inside := isInside_of_holds (holds_shortest positive)
  have size := lt_pow_digitCount (shortest rank).coefficient
  rw [digitCount, if_neg (by simpa using (shortest_pos positive).ne')] at size
  exact ⟨le_position positive inside size,
    position_le finite inside (pow_le_of_length_natText (shortest_pos positive))⟩

/-- Every decimal of the value of the shortest one is rounded back to the magnitude. -/
theorem ofDecimal_shortest {rank : Nat} (positive : 0 < rank) (negative : Bool) {coefficient : Nat}
    {exponent : Int}
    (same : coefficient * 10 ^ exponent.toNat * 10 ^ (-(shortest rank).exponent).toNat
      = (shortest rank).coefficient * 10 ^ (shortest rank).exponent.toNat * 10 ^ (-exponent).toNat) :
    Binary64.ofDecimal negative coefficient exponent = Binary64.ofRank negative rank := by
  have unit : ∀ power, 0 < 10 ^ power := fun _ => Nat.pow_pos (by decide)
  have inside := isInside_of_holds (holds_shortest positive)
  exact Binary64.ofRatio_of_isInside positive (unit _)
    (inside.congr (unit _) (unit _) same.symm) negative

/-- The digits of the shortest decimal of a magnitude are read back as the magnitude, with the point at
its place and any number of zeros behind them. -/
theorem ofParts_shortest {rank : Nat} (positive : 0 < rank) (negative : Bool)
    {whole fraction : List Char} {exponent : Int} (zeros : Nat)
    (value : digitsValue (whole ++ fraction)
      = digitsValue (trimmedDigits (shortest rank).coefficient) * 10 ^ zeros)
    (power : exponent - fraction.length + zeros
      = (shortest rank).exponent + (natText (shortest rank).coefficient).length
        - (trimmedDigits (shortest rank).coefficient).length)
    (least : -20000 ≤ exponent + whole.length) (greatest : exponent ≤ 20000) :
    ofParts negative whole fraction exponent = Binary64.ofRank negative rank := by
  obtain ⟨dropped, split, lengths⟩ := eq_digitsValue_trimmedDigits (shortest_pos positive)
  have significant : digitsValue (whole ++ fraction) ≠ 0 := by
    have coefficient := shortest_pos positive
    rw [split] at coefficient
    rw [value]
    exact (Nat.mul_pos (Nat.pos_of_mul_pos_right coefficient) (Nat.pow_pos (by decide))).ne'
  have unbounded : max (-20000 - Int.ofNat (whole ++ fraction).length)
      (min (exponent - fraction.length) 20000) = exponent - fraction.length := by
    rw [List.length_append, Int.ofNat_eq_natCast, Nat.cast_add]
    omega
  unfold ofParts
  dsimp only
  rw [if_neg (by simpa using significant), unbounded]
  refine ofDecimal_shortest positive negative ?_
  rw [value]
  generalize digitsValue (trimmedDigits (shortest rank).coefficient) = digits at split
  rw [split]
  simp only [Nat.mul_assoc, ← Nat.pow_add]
  congr 2
  omega

end Scaffold.Decimal
