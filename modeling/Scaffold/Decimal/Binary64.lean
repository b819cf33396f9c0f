/-!
# Double precision numbers

The numbers of the binary interchange format with 53 significant bits.  A finite magnitude is held as
its rank: its position when all of them are listed in increasing order from zero.  Every rank is a
number and every number has one rank, so equality of values is equality of representations (zero keeps
its sign).  All arithmetic is exact on quotients of natural numbers and rounds once, to the nearest
value and on ties to the even significand.
-/

namespace Scaffold.Decimal

/-- The number of fractions of one exponent: the 52nd power of two. -/
abbrev binade : Nat := 4503599627370496

/-- The number of finite magnitudes: 2047 exponents with all their fractions. -/
abbrev rankCount : Nat := 2047 * binade

/-- A double precision number. -/
inductive Binary64 where
  /-- The result of an undefined operation. -/
  | nan
  | infinite (negative : Bool)
  | finite (negative : Bool) (rank : Fin rankCount)
  deriving DecidableEq, Repr, Inhabited

/-- The quotient of two natural numbers rounded to the nearest, on ties to the even one. -/
def roundHalfEven (numerator denominator : Nat) : Nat :=
  let quotient := numerator / denominator
  let twice := 2 * (numerator % denominator)
  if twice < denominator then quotient
  else if denominator < twice then quotient + 1
  else if quotient % 2 == 0 then quotient else quotient + 1

namespace Binary64

/-- The significand of a rank: its fraction, with the leading bit above the smallest exponent. -/
def significand (rank : Nat) : Nat :=
  if rank < binade then rank else rank % binade + binade

/-- How far the exponent of a rank lies above the smallest one, `-1074`. -/
def scale (rank : Nat) : Nat := rank / binade - 1

/-- A magnitude as a quotient: numerator and positive denominator. -/
def ratio (rank : Nat) : Nat × Nat :=
  (significand rank * Nat.pow 2 (scale rank - 1074), Nat.pow 2 (1074 - scale rank))

/-- The power of two by which a positive quotient is divided to leave 53 bits, counted from `-1074`. -/
def scaleOf (numerator denominator : Nat) : Nat :=
  let bits : Int := Int.ofNat (Nat.log2 numerator) - Int.ofNat (Nat.log2 denominator)
  let estimate := Int.toNat (bits - 52 + 1074)
  if numerator * Nat.pow 2 1074 < denominator * Nat.pow 2 (52 + estimate) then estimate - 1
  else estimate

/-- The finite number of a rank, or the infinity when the rank is beyond the last magnitude. -/
def ofRank (negative : Bool) (rank : Nat) : Binary64 :=
  if inRange : rank < rankCount then .finite negative ⟨rank, inRange⟩ else .infinite negative

/-- The number nearest to a quotient with a positive denominator. -/
def ofRatio (negative : Bool) (numerator denominator : Nat) : Binary64 :=
  if numerator == 0 then ofRank negative 0
  else
    let shift := scaleOf numerator denominator
    ofRank negative
      (shift * binade + roundHalfEven (numerator * Nat.pow 2 1074) (denominator * Nat.pow 2 shift))

/-- The number nearest to an integer. -/
def ofInt (value : Int) : Binary64 := ofRatio (value < 0) value.natAbs 1

/-- The number nearest to `coefficient * 10 ^ exponent`. -/
def ofDecimal (negative : Bool) (coefficient : Nat) (exponent : Int) : Binary64 :=
  ofRatio negative (coefficient * Nat.pow 10 exponent.toNat) (Nat.pow 10 (-exponent).toNat)

/-- Both zeros. -/
def isZero : Binary64 → Bool
  | .finite _ rank => rank.val == 0
  | _ => false

/-- A value as a signed quotient; none for infinities and the undefined number. -/
def signedRatio? : Binary64 → Option (Int × Nat)
  | .finite negative rank =>
    let (numerator, denominator) := ratio rank
    some (if negative then -Int.ofNat numerator else Int.ofNat numerator, denominator)
  | _ => none

/-- The number nearest to a signed quotient; a zero result has the given sign. -/
def ofSignedRatio (zeroNegative : Bool) (numerator : Int) (denominator : Nat) : Binary64 :=
  if numerator == 0 then ofRank zeroNegative 0
  else ofRatio (numerator < 0) numerator.natAbs denominator

/-- The integer a value is equal to, if it is one. -/
def toInt? (value : Binary64) : Option Int :=
  match value.signedRatio? with
  | some (numerator, denominator) =>
    if numerator % denominator == 0 then some (numerator / denominator) else none
  | none => none

/-- Below zero; negative zero is not. -/
def isNegative : Binary64 → Bool
  | .nan => false
  | .infinite negative => negative
  | .finite negative rank => negative && rank.val != 0

/-- The sign bit. -/
def sign : Binary64 → Bool
  | .nan => false
  | .infinite negative => negative
  | .finite negative _ => negative

/-- The value with the other sign. -/
def negate : Binary64 → Binary64
  | .nan => .nan
  | .infinite negative => .infinite !negative
  | .finite negative rank => .finite (!negative) rank

/-- Sum. -/
def add (left right : Binary64) : Binary64 :=
  match left, right with
  | .nan, _ => .nan
  | _, .nan => .nan
  | .infinite first, .infinite second => if first == second then .infinite first else .nan
  | .infinite negative, _ => .infinite negative
  | _, .infinite negative => .infinite negative
  | .finite first leftRank, .finite second rightRank =>
    let (leftNumerator, leftDenominator) := ratio leftRank
    let (rightNumerator, rightDenominator) := ratio rightRank
    let signed (negative : Bool) (value : Nat) : Int :=
      if negative then -Int.ofNat value else Int.ofNat value
    ofSignedRatio (first && second)
      (signed first leftNumerator * rightDenominator + signed second rightNumerator * leftDenominator)
      (leftDenominator * rightDenominator)

/-- Difference. -/
def sub (left right : Binary64) : Binary64 := left.add right.negate

/-- Product. -/
def mul (left right : Binary64) : Binary64 :=
  let negative := left.sign != right.sign
  match left, right with
  | .nan, _ => .nan
  | _, .nan => .nan
  | .finite _ leftRank, .finite _ rightRank =>
    let (leftNumerator, leftDenominator) := ratio leftRank
    let (rightNumerator, rightDenominator) := ratio rightRank
    ofRatio negative (leftNumerator * rightNumerator) (leftDenominator * rightDenominator)
  | _, _ => if left.isZero || right.isZero then .nan else .infinite negative

/-- Quotient; a zero divisor gives the undefined number. -/
def div (left right : Binary64) : Binary64 :=
  let negative := left.sign != right.sign
  match left, right with
  | .nan, _ => .nan
  | _, .nan => .nan
  | .infinite _, .infinite _ => .nan
  | .infinite _, .finite _ _ => .infinite negative
  | .finite _ _, .infinite _ => ofRank negative 0
  | .finite _ leftRank, .finite _ rightRank =>
    let (leftNumerator, leftDenominator) := ratio leftRank
    let (rightNumerator, rightDenominator) := ratio rightRank
    if rightNumerator == 0 then .nan
    else ofRatio negative (leftNumerator * rightDenominator) (leftDenominator * rightNumerator)

/-- The remainder of a division whose quotient is rounded down; it has the divisor's sign. -/
def mod (left right : Binary64) : Binary64 :=
  match left, right with
  | .finite _ _, .infinite negative => if left.isZero || left.isNegative == negative then left else right
  | _, _ =>
    match left.signedRatio?, right.signedRatio? with
    | some (leftNumerator, leftDenominator), some (rightNumerator, rightDenominator) =>
      if rightNumerator == 0 then .nan
      else
        ofSignedRatio right.sign
          (Int.fmod (leftNumerator * rightDenominator) (rightNumerator * leftDenominator))
          (leftDenominator * rightDenominator)
    | _, _ => .nan

/-- The greatest integer not above a finite value. -/
def floor? (value : Binary64) : Option Int :=
  value.signedRatio?.map fun (numerator, denominator) => Int.fdiv numerator denominator

/-- The quotient rounded down, as a number. -/
def floorDiv (left right : Binary64) : Binary64 :=
  let remainder := left.mod right
  let quotient := (left.sub remainder).div right
  match quotient.floor? with
  | some whole =>
    if whole == 0 then ofRank (left.sign != right.sign) 0
    else
      let rounded := ofInt whole
      match (quotient.sub rounded).signedRatio? with
      | some (numerator, denominator) =>
        if 2 * numerator > denominator then ofInt (whole + 1) else rounded
      | none => rounded
  | none => quotient

/-- Order; the undefined number compares with nothing. -/
def lt (left right : Binary64) : Bool :=
  match left, right with
  | .nan, _ => false
  | _, .nan => false
  | .infinite first, .infinite second => first && !second
  | .infinite negative, _ => negative
  | _, .infinite negative => !negative
  | .finite _ _, .finite _ _ =>
    match left.signedRatio?, right.signedRatio? with
    | some (leftNumerator, leftDenominator), some (rightNumerator, rightDenominator) =>
      leftNumerator * rightDenominator < rightNumerator * leftDenominator
    | _, _ => false

/-- Numeric equality: the zeros are equal and the undefined number differs from itself. -/
def same (left right : Binary64) : Bool :=
  match left, right with
  | .nan, _ => false
  | _, .nan => false
  | _, _ => left == right || (left.isZero && right.isZero)

end Binary64

end Scaffold.Decimal
