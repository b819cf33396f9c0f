import Scaffold.Decimal.Binary64

/-!
# Shortest decimals

The decimal of fewest digits that reads back as a given double precision number, and of those the
nearest one.  A magnitude is read back from every decimal inside its rounding interval, whose ends
belong to it when its significand is even.  For each digit count the two neighbours of the magnitude on
that decimal grid are tried.
-/

namespace Scaffold.Decimal

/-- The decimal `coefficient * 10 ^ exponent`. -/
structure Scientific where
  coefficient : Nat
  exponent : Int
  deriving DecidableEq, Repr

/-- The number of decimal digits of a natural number; zero has none. -/
def digitCount (number : Nat) : Nat :=
  if number == 0 then 0 else (Nat.toDigits 10 number).length

/-- The position of the decimal point before the first digit of a positive quotient: the `p` for which
the quotient lies from `10 ^ (p - 1)` up to, but not including, `10 ^ p`. -/
def leadingPosition (numerator denominator : Nat) : Int :=
  if denominator ≤ numerator then digitCount (numerator / denominator)
  else 1 - Int.ofNat (digitCount ((denominator - 1) / numerator))

/-- The decimals that read back as a magnitude: four times its bounds over a common denominator. -/
structure RoundingInterval where
  lower : Nat
  upper : Nat
  denominator : Nat
  closed : Bool

/-- The rounding interval of a magnitude.  Just above a power of two the lower half is narrower. -/
def RoundingInterval.ofRank (rank : Nat) : RoundingInterval :=
  let significand := Binary64.significand rank
  let lowerGap := if rank % binade == 0 && 2 * binade ≤ rank then 1 else 2
  let factor := Nat.pow 2 (Binary64.scale rank - 1074)
  { lower := (4 * significand - lowerGap) * factor
    upper := (4 * significand + 2) * factor
    denominator := 4 * Nat.pow 2 (1074 - Binary64.scale rank)
    closed := significand % 2 == 0 }

/-- Whether the decimal lies in the interval. -/
def RoundingInterval.holds (interval : RoundingInterval) (value : Scientific) : Bool :=
  let scaled := value.coefficient * Nat.pow 10 value.exponent.toNat * interval.denominator
  let unit := Nat.pow 10 (-value.exponent).toNat
  if interval.closed then interval.lower * unit ≤ scaled && scaled ≤ interval.upper * unit
  else interval.lower * unit < scaled && scaled < interval.upper * unit

/-- The two neighbours of a positive quotient among the multiples of `10 ^ exponent`, the nearer first;
on a tie the one with the even coefficient. -/
def gridNeighbours (numerator denominator : Nat) (exponent : Int) : List Scientific :=
  let top := numerator * Nat.pow 10 (-exponent).toNat
  let bottom := denominator * Nat.pow 10 exponent.toNat
  let below := top / bottom
  let nearest := roundHalfEven top bottom
  [⟨nearest, exponent⟩, ⟨if nearest == below then below + 1 else below, exponent⟩]

/-- The shortest decimal of a positive magnitude.  Seventeen digits are always enough. -/
def shortest (rank : Nat) : Scientific :=
  let (numerator, denominator) := Binary64.ratio rank
  let interval := RoundingInterval.ofRank rank
  let position := leadingPosition numerator denominator
  let candidates := (List.range 17).flatMap fun count =>
    gridNeighbours numerator denominator (position - Int.ofNat (count + 1))
  (candidates.find? interval.holds).getD ⟨0, 0⟩

end Scaffold.Decimal
