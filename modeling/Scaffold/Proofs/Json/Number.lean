import Scaffold.Json.Reader
import Scaffold.Proofs.Decimal.Digits
import Scaffold.Proofs.Decimal.Shortest
import Scaffold.Proofs.Json.Document

/-!
# Written numbers are read back

A number of a document is followed by nothing that could belong to it (`Delimits`), so its digits, its
fraction and its exponent are found again, and with them its value.
-/

namespace Scaffold.Json

open Scaffold.Decimal

/-- What follows cannot belong to a number. -/
def Delimits (rest : List Char) : Prop :=
  ∀ c ∈ rest.head?, isDigit c = false ∧ c ≠ '.' ∧ c ≠ 'e' ∧ c ≠ 'E'

variable {digits whole fraction rest : List Char}

/-- Digits end where something else follows. -/
theorem takeDigits_append (ascii : ∀ digit ∈ digits, isDigit digit)
    (ends : ∀ c ∈ rest.head?, isDigit c = false) : takeDigits (digits ++ rest) = (digits, rest) := by
  unfold takeDigits
  rw [List.takeWhile_append_of_pos ascii, List.dropWhile_append_of_pos ascii]
  cases rest with
  | nil => simp
  | cons c rest =>
      have other := ends c rfl
      simp [other]

/-- Digits that stand before a point: a zero alone, or no zero first. -/
structure IsWhole (digits : List Char) : Prop where
  ascii : ∀ digit ∈ digits, isDigit digit
  nonempty : digits ≠ []
  leading : digits = ['0'] ∨ digits.head? ≠ some '0'

/-- A zero is a digit. -/
theorem isDigit_zero : ∀ digit ∈ ['0'], isDigit digit := List.forall_mem_singleton.mpr rfl

/-- A zero alone stands before a point. -/
theorem isWhole_zero : IsWhole ['0'] := ⟨isDigit_zero, List.cons_ne_nil _ _, .inl rfl⟩

/-- The digits of a number stand before a point. -/
theorem isWhole_natText (number : Nat) : IsWhole (natText number) where
  ascii _ member := isDigit_of_mem_natText member
  nonempty := natText_ne_nil number
  leading := by
    rcases Nat.eq_zero_or_pos number with rfl | positive
    · exact .inl (by decide)
    · exact .inr (head_natText_ne_zero positive)

/-- The digits before the point end where no digit follows. -/
theorem readWhole_append (digitsWhole : IsWhole whole) (ends : ∀ c ∈ rest.head?, isDigit c = false) :
    readWhole (whole ++ rest) = (whole, rest) := by
  rcases digitsWhole.leading with rfl | leading
  · rfl
  · obtain ⟨first, others, rfl⟩ := List.exists_cons_of_ne_nil digitsWhole.nonempty
    have notZero : first ≠ '0' := by simpa using leading
    unfold readWhole
    split
    next zero => exact absurd (List.cons.inj zero).1 notZero
    next => exact takeDigits_append digitsWhole.ascii ends

/-- There is no fraction without a point. -/
theorem readFraction_of_head (plain : ∀ c ∈ rest.head?, c ≠ '.') : readFraction rest = ([], rest) := by
  unfold readFraction
  split
  next => exact absurd rfl (plain '.' rfl)
  next => rfl

/-- The fraction ends where no digit follows. -/
theorem readFraction_append (ascii : ∀ digit ∈ fraction, isDigit digit) (nonempty : fraction ≠ [])
    (ends : ∀ c ∈ rest.head?, isDigit c = false) :
    readFraction ('.' :: (fraction ++ rest)) = (fraction, rest) := by
  obtain ⟨first, others, rfl⟩ := List.exists_cons_of_ne_nil nonempty
  have digit : isDigit first = true := ascii first List.mem_cons_self
  have taken := takeDigits_append ascii ends
  rw [List.cons_append] at taken
  simp only [List.cons_append, readFraction, digit, if_true, taken]

/-- There is no exponent without its mark. -/
theorem readExponent_of_head (plain : ∀ c ∈ rest.head?, c ≠ 'e' ∧ c ≠ 'E') :
    readExponent rest = none := by
  cases rest with
  | nil => rfl
  | cons c rest =>
      obtain ⟨lower, upper⟩ := plain c rfl
      simp [readExponent, lower, upper]

/-- A signed exponent ends where no digit follows. -/
theorem readExponent_append (ascii : ∀ digit ∈ digits, isDigit digit) (nonempty : digits ≠ [])
    (ends : ∀ c ∈ rest.head?, isDigit c = false) (below : Bool) :
    readExponent ('e' :: (if below then '-' else '+') :: (digits ++ rest))
      = some (if below then -Int.ofNat (digitsValue digits) else Int.ofNat (digitsValue digits),
          rest) := by
  have taken := takeDigits_append ascii ends
  obtain ⟨first, others, rfl⟩ := List.exists_cons_of_ne_nil nonempty
  rw [List.cons_append] at taken
  cases below <;> simp [readExponent, taken]

/-- The digits of an integer are read back. -/
theorem readNumber_natText (negative : Bool) (number : Nat) (short : (natText number).length ≤ maxDigits)
    (delimited : Delimits rest) :
    readNumber negative (natText number ++ rest)
      = some (.scalar (.int (if negative then -Int.ofNat number else Int.ofNat number)), rest) := by
  have read := readWhole_append (isWhole_natText number) fun c head => (delimited c head).1
  have noFraction := readFraction_of_head fun c head => (delimited c head).2.1
  have noExponent := readExponent_of_head fun c head => (delimited c head).2.2
  simp [readNumber, read, noFraction, noExponent, natText_ne_nil, Nat.not_lt.mpr short]

/-- A number with a fraction or an exponent is read from its parts. -/
theorem readNumber_parts (negative : Bool) {text afterWhole afterFraction : List Char}
    (read : readWhole text = (whole, afterWhole)) (nonempty : whole ≠ [])
    (readRest : readFraction afterWhole = (fraction, afterFraction))
    (inexact : fraction ≠ [] ∨ readExponent afterFraction ≠ none) :
    readNumber negative text
      = some (.scalar (.float (ofParts negative whole fraction
          ((readExponent afterFraction).getD (0, afterFraction)).1)),
        ((readExponent afterFraction).getD (0, afterFraction)).2) := by
  have parts : ¬(fraction = [] ∧ readExponent afterFraction = none) := by tauto
  simp [readNumber, read, readRest, nonempty, parts]

/-- A number with a fraction and no exponent is read back. -/
theorem readNumber_positional (negative : Bool) (digitsWhole : IsWhole whole)
    (ascii : ∀ digit ∈ fraction, isDigit digit) (nonempty : fraction ≠ [])
    (delimited : Delimits rest) :
    readNumber negative (whole ++ ['.'] ++ fraction ++ rest)
      = some (.scalar (.float (ofParts negative whole fraction 0)), rest) := by
  have read : readWhole (whole ++ '.' :: (fraction ++ rest)) = (whole, '.' :: (fraction ++ rest)) :=
    readWhole_append digitsWhole fun c head => Option.some.inj head ▸ by decide
  have readRest := readFraction_append ascii nonempty fun c head => (delimited c head).1
  have noExponent := readExponent_of_head fun c head => (delimited c head).2.2
  have parts := readNumber_parts negative read digitsWhole.nonempty readRest (.inl nonempty)
  rw [noExponent] at parts
  simpa using parts

/-- A number with an exponent is read back. -/
theorem readNumber_scientific (negative : Bool) {first : Char} (digit : isDigit first)
    (notZero : first ≠ '0') (ascii : ∀ digit ∈ fraction, isDigit digit)
    (power : ∀ digit ∈ digits, isDigit digit) (nonempty : digits ≠ []) (delimited : Delimits rest) (below : Bool) :
    readNumber negative ([first] ++ (if fraction.isEmpty then [] else '.' :: fraction)
        ++ ['e', if below then '-' else '+'] ++ digits ++ rest)
      = some (.scalar (.float (ofParts negative [first] fraction
          (if below then -Int.ofNat (digitsValue digits) else Int.ofNat (digitsValue digits)))),
        rest) := by
  have start : IsWhole [first] := ⟨by simpa using digit, by simp, .inr (by simpa using notZero)⟩
  have exponent := readExponent_append power nonempty (fun c head => (delimited c head).1) below
  generalize mark : 'e' :: (if below then '-' else '+') :: (digits ++ rest) = after at exponent
  have plain : ∀ c ∈ after.head?, isDigit c = false ∧ c ≠ '.' := by
    intro c head
    obtain rfl : 'e' = c := by simpa [← mark] using head
    decide
  have whole : readWhole ([first] ++ ((if fraction.isEmpty then [] else '.' :: fraction) ++ after))
      = ([first], (if fraction.isEmpty then [] else '.' :: fraction) ++ after) := by
    refine readWhole_append start fun c head => ?_
    split at head
    next => exact (plain c head).1
    next =>
      obtain rfl : '.' = c := by simpa using head
      decide
  have rest : readFraction ((if fraction.isEmpty then [] else '.' :: fraction) ++ after)
      = (fraction, after) := by
    split
    next empty =>
      rw [List.isEmpty_iff.mp empty]
      exact readFraction_of_head fun c head => (plain c head).2
    next some =>
      exact readFraction_append ascii (by simpa using some) fun c head => (plain c head).1
  have parts := readNumber_parts negative whole start.nonempty rest
    (.inr (by rw [exponent]; exact nofun))
  rw [exponent] at parts
  rw [← mark] at parts
  simpa using parts

/-- Zeros are digits. -/
theorem isDigit_of_mem_replicate {count : Nat} {digit : Char}
    (member : digit ∈ List.replicate count '0') : isDigit digit := by
  rw [List.eq_of_mem_replicate member]
  decide

/-- Digits with a point among or around them are digits before the point and behind it, with some zeros
behind all of them. -/
theorem positional_spec (position : Int) (ascii : ∀ digit ∈ digits, isDigit digit)
    (nonempty : digits ≠ []) (leading : digits.head? ≠ some '0') :
    ∃ whole fraction, ∃ zeros : Nat, positional digits position = whole ++ ['.'] ++ fraction
      ∧ IsWhole whole ∧ (∀ digit ∈ fraction, isDigit digit) ∧ fraction ≠ []
      ∧ digitsValue (whole ++ fraction) = digitsValue digits * 10 ^ zeros
      ∧ 0 - (fraction.length : Int) + zeros = position - digits.length := by
  unfold positional
  split
  next before =>
    have value : digitsValue (['0'] ++ (List.replicate (-position).toNat '0' ++ digits))
        = digitsValue digits * 10 ^ 0 := by
      have start : digitsValue ['0'] = 0 := by decide
      rw [digitsValue_append, digitsValue_append, digitsValue_replicate, start]
      simp
    refine ⟨['0'], List.replicate (-position).toNat '0' ++ digits, 0, by simp, isWhole_zero, ?_,
      by simp [nonempty], value, by simp; omega⟩
    exact List.forall_mem_append.mpr ⟨fun _ => isDigit_of_mem_replicate, ascii⟩
  next after =>
    dsimp only
    split
    next integral =>
      have whole : IsWhole (digits ++ List.replicate (position.toNat - digits.length) '0') := by
        refine ⟨List.forall_mem_append.mpr ⟨ascii, fun _ => isDigit_of_mem_replicate⟩, by simp [nonempty],
          .inr ?_⟩
        rwa [List.head?_append_of_ne_nil _ nonempty]
      have value : digitsValue (digits ++ List.replicate (position.toNat - digits.length) '0' ++ ['0'])
          = digitsValue digits * 10 ^ (position.toNat - digits.length + 1) := by
        rw [List.append_assoc, ← List.replicate_succ', digitsValue_append, digitsValue_replicate,
          List.length_replicate, Nat.add_zero]
      exact ⟨_, ['0'], _, by simp, whole, isDigit_zero, by simp, value, by simp; omega⟩
    next inside =>
      have split : digits.take position.toNat ++ digits.drop position.toNat = digits :=
        List.take_append_drop ..
      have whole : IsWhole (digits.take position.toNat) := by
        refine ⟨fun digit member => ascii digit (List.mem_of_mem_take member), ?_, .inr ?_⟩
        · simp [nonempty]
          omega
        · rwa [List.head?_take, if_neg (by omega)]
      refine ⟨digits.take position.toNat, digits.drop position.toNat, 0, rfl, whole,
        fun digit member => ascii digit (List.mem_of_mem_drop member), ?_, by rw [split]; simp,
        by simp; omega⟩
      simp
      omega

/-- A sign before the size of a number gives the number. -/
theorem signed_natAbs (number : Int) :
    (if decide (number < 0) then -Int.ofNat number.natAbs else Int.ofNat number.natAbs) = number := by
  rw [Int.ofNat_eq_natCast]
  split
  next below =>
    rw [decide_eq_true_eq] at below
    omega
  next above =>
    rw [decide_eq_true_eq] at above
    omega

/-- The digits of a magnitude are read back as the magnitude. -/
theorem readNumber_magnitude (negative : Bool) (style : FloatNotation) {rank : Nat}
    (finite : rank < rankCount) (delimited : Delimits rest) :
    readNumber negative (style.magnitude rank ++ rest)
      = some (.scalar (.float (Binary64.ofRank negative rank)), rest) := by
  unfold FloatNotation.magnitude
  split
  next zero =>
    rw [beq_iff_eq.mp zero]
    exact readNumber_positional negative isWhole_zero isDigit_zero (by decide) delimited
  next nonzero =>
    have positive : 0 < rank := Nat.pos_of_ne_zero (by simpa using nonzero)
    obtain ⟨least, greatest⟩ := position_bounds positive finite
    obtain ⟨first, others, split, notZero, ascii⟩ := trimmedDigits_spec (shortest_pos positive)
    have parts := @ofParts_shortest rank positive negative
    dsimp only
    generalize (shortest rank).exponent + (natText (shortest rank).coefficient).length = position
      at least greatest parts ⊢
    generalize trimmedDigits (shortest rank).coefficient = digits at split ascii parts ⊢
    subst split
    split
    next =>
      obtain ⟨whole, fraction, zeros, split, digitsWhole, digits, nonempty, value, power⟩ :=
        positional_spec position ascii (List.cons_ne_nil first others) (by simpa using notZero)
      rw [split, readNumber_positional negative digitsWhole digits nonempty delimited,
        parts zeros value power (by omega) (by omega)]
    next =>
      have power : ∀ digit ∈
          List.replicate (style.exponentWidth - (natText (position - 1).natAbs).length) '0'
            ++ natText (position - 1).natAbs, isDigit digit :=
        List.forall_mem_append.mpr ⟨fun _ => isDigit_of_mem_replicate, fun _ => isDigit_of_mem_natText⟩
      have read := readNumber_scientific negative (ascii first List.mem_cons_self) notZero
        (fun digit member => ascii digit (List.mem_cons_of_mem _ member)) power (by simp [natText_ne_nil])
        delimited (decide (position - 1 < 0))
      rw [digitsValue_append, digitsValue_replicate, digitsValue_natText, Nat.zero_mul, Nat.zero_add,
        signed_natAbs, parts 0 (by simp) (by simp; omega) (by simp; omega) (by omega)] at read
      simpa [scientific] using read

end Scaffold.Json
