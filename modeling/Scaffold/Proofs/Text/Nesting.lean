import Mathlib.Tactic.Common

/-!
# Nested brackets

The brackets of a text are nested if each opening one is followed by a nested text and the bracket that closes it
(`Nested`).  A reader that keeps the closing brackets it waits for decides that (`nested_iff`).  So only brackets
count (`Nested.congr`), and a nested text can be put anywhere (`Nested.insert_iff`).  A part of a nested text whose
brackets are paired with others may be put between parentheses exactly if all of these are parentheses
(`nested_argument_iff`).
-/

namespace Scaffold.Text

/-- The bracket that closes an opening one. -/
def closerOf? : Char → Option Char
  | '(' => some ')'
  | '[' => some ']'
  | '\x7b' => some '\x7d'
  | _ => none

/-- A closing bracket. -/
def isCloser (c : Char) : Bool := c == ')' || c == ']' || c == '\x7d'

/-- A bracket of any kind. -/
def isBracket (c : Char) : Bool := (closerOf? c).isSome || isCloser c

/-- A text whose brackets are closed in the order in which they need it. -/
inductive Nested : List Char → Prop where
  | nil : Nested []
  | other {c rest} (plain : isBracket c = false) (nested : Nested rest) : Nested (c :: rest)
  | pair {c d inside rest} (closes : closerOf? c = some d) (within : Nested inside) (nested : Nested rest) :
      Nested (c :: (inside ++ d :: rest))

/-- The closing brackets that are awaited behind a character, the next one first; none if the character is a closing
bracket and not the next one. -/
def awaitedAfter? (stack : List Char) (c : Char) : Option (List Char) :=
  match closerOf? c with
  | some d => some (d :: stack)
  | none => if isCloser c then (if stack.head? == some c then some stack.tail else none) else some stack

/-- The closing brackets that are awaited behind a text. -/
def awaited? (stack text : List Char) : Option (List Char) := text.foldlM awaitedAfter? stack

variable {c d : Char} {stack final text rest inside front inner back : List Char}

/-! ## Reading brackets -/

/-- Characters are read one after the other. -/
theorem awaited?_cons (stack : List Char) (c : Char) (rest : List Char) :
    awaited? stack (c :: rest) = (awaitedAfter? stack c).bind fun between => awaited? between rest :=
  List.foldlM_cons

/-- Texts are read one after the other. -/
theorem awaited?_append (stack text rest : List Char) :
    awaited? stack (text ++ rest) = (awaited? stack text).bind fun between => awaited? between rest :=
  List.foldlM_append

/-- A closing bracket closes no other. -/
theorem closerOf?_of_isCloser (closer : isCloser c = true) : closerOf? c = none := by
  simp only [isCloser, Bool.or_eq_true, beq_iff_eq] at closer
  rcases closer with (rfl | rfl) | rfl <;> rfl

/-- What closes an opening bracket is a closing one. -/
theorem isCloser_of_closerOf? (closes : closerOf? c = some d) : isCloser d = true := by
  unfold closerOf? at closes
  split at closes
  · exact Option.some.inj closes ▸ rfl
  · exact Option.some.inj closes ▸ rfl
  · exact Option.some.inj closes ▸ rfl
  · cases closes

/-- An opening bracket awaits its closing one. -/
theorem awaited?_opener (closes : closerOf? c = some d) (stack rest : List Char) :
    awaited? stack (c :: rest) = awaited? (d :: stack) rest := by
  rw [awaited?_cons, awaitedAfter?, closes]
  rfl

/-- A closing bracket must be the next one that is awaited. -/
theorem awaited?_closer_iff (closer : isCloser c = true) :
    awaited? stack (c :: rest) = some final ↔ ∃ below, stack = c :: below ∧ awaited? below rest = some final := by
  rw [awaited?_cons, awaitedAfter?, closerOf?_of_isCloser closer]
  simp only [closer, if_true]
  cases stack with
  | nil => simp
  | cons next below =>
      by_cases same : next = c
      · simp [same]
      · simp [same]

/-- Other characters do not count. -/
theorem awaited?_other (plain : isBracket c = false) (stack rest : List Char) :
    awaited? stack (c :: rest) = awaited? stack rest := by
  obtain ⟨opener, closer⟩ := Bool.or_eq_false_iff.mp plain
  rw [Option.isSome_eq_false_iff, Option.isNone_iff_eq_none] at opener
  rw [awaited?_cons, awaitedAfter?, opener]
  simp [closer]

/-- A character is an opening bracket, a closing one, or none. -/
theorem bracket_cases (c : Char) : (∃ d, closerOf? c = some d) ∨ isCloser c = true ∨ isBracket c = false := by
  cases opener : closerOf? c with
  | some d => exact .inl ⟨d, rfl⟩
  | none =>
      cases closer : isCloser c with
      | true => exact .inr (.inl rfl)
      | false => exact .inr (.inr (by simp [isBracket, opener, closer]))

/-- Only brackets are read. -/
theorem awaited?_filter (stack text : List Char) :
    awaited? stack (text.filter isBracket) = awaited? stack text := by
  induction text generalizing stack with
  | nil => rfl
  | cons c text inductionHypothesis =>
      by_cases bracket : isBracket c = true
      · rw [List.filter_cons_of_pos bracket, awaited?_cons, awaited?_cons]
        simp only [inductionHypothesis]
      · rw [List.filter_cons_of_neg bracket, awaited?_other (by simpa using bracket), inductionHypothesis]

/-! ## Nested texts -/

/-- Behind a nested text the same brackets are awaited as before it. -/
theorem Nested.awaited?_eq (nested : Nested text) (stack : List Char) : awaited? stack text = some stack := by
  induction nested generalizing stack with
  | nil => rfl
  | other plain _ inductionHypothesis => rw [awaited?_other plain, inductionHypothesis]
  | @pair c d inside rest closes _ _ within inductionHypothesis =>
      rw [awaited?_opener closes, awaited?_append, within, Option.bind_some,
        awaited?_closer_iff (isCloser_of_closerOf? closes)]
      exact ⟨stack, rfl, inductionHypothesis stack⟩

/-- A closing bracket that is awaited stands behind a nested text. -/
theorem exists_of_awaited? (text : List Char) {d : Char} {stack : List Char}
    (read : awaited? (d :: stack) text = some []) :
    ∃ inside rest, text = inside ++ d :: rest ∧ Nested inside ∧ awaited? stack rest = some [] := by
  match text with
  | [] => cases read
  | c :: text =>
      rcases bracket_cases c with ⟨e, closes⟩ | closer | plain
      · -- The bracket that opens here is closed first.
        rw [awaited?_opener closes] at read
        obtain ⟨first, between, rfl, within, read⟩ := exists_of_awaited? text read
        obtain ⟨second, rest, rfl, beside, read⟩ := exists_of_awaited? between read
        exact ⟨c :: (first ++ e :: second), rest, by simp, .pair closes within beside, read⟩
      · obtain ⟨below, same, read⟩ := (awaited?_closer_iff closer).mp read
        obtain ⟨rfl, rfl⟩ := List.cons.inj same
        exact ⟨[], text, rfl, .nil, read⟩
      · rw [awaited?_other plain] at read
        obtain ⟨inside, rest, rfl, within, read⟩ := exists_of_awaited? text read
        exact ⟨c :: inside, rest, rfl, .other plain within, read⟩
  termination_by text.length
  decreasing_by all_goals subst_vars; simp +arith

/-- A text is nested if nothing is awaited behind it. -/
theorem nested_of_awaited? (text : List Char) (read : awaited? [] text = some []) : Nested text := by
  match text with
  | [] => exact .nil
  | c :: text =>
      rcases bracket_cases c with ⟨d, closes⟩ | closer | plain
      · rw [awaited?_opener closes] at read
        obtain ⟨inside, rest, rfl, within, read⟩ := exists_of_awaited? text read
        exact .pair closes within (nested_of_awaited? rest read)
      · obtain ⟨_, impossible, _⟩ := (awaited?_closer_iff closer).mp read
        cases impossible
      · rw [awaited?_other plain] at read
        exact .other plain (nested_of_awaited? text read)
  termination_by text.length
  decreasing_by all_goals subst_vars; simp +arith

/-- A text is nested exactly if every bracket can be read and nothing is awaited behind it. -/
theorem nested_iff : Nested text ↔ awaited? [] text = some [] :=
  ⟨fun nested => nested.awaited?_eq [], nested_of_awaited? text⟩

instance : DecidablePred Nested := fun _ => decidable_of_iff' _ nested_iff

/-- Only the brackets of a text count. -/
theorem Nested.congr {other : List Char} (same : text.filter isBracket = other.filter isBracket) :
    Nested text ↔ Nested other := by
  rw [nested_iff, nested_iff, ← awaited?_filter [] text, same, awaited?_filter]

/-- A nested text can be put anywhere. -/
theorem Nested.insert_iff (nested : Nested inner) : Nested (front ++ (inner ++ back)) ↔ Nested (front ++ back) := by
  rw [nested_iff, nested_iff, awaited?_append, awaited?_append]
  refine Eq.congr_left (Option.bind_congr fun stack _ => ?_)
  rw [awaited?_append, nested.awaited?_eq, Option.bind_some]

/-- Nested texts can stand side by side. -/
theorem Nested.append (first : Nested front) (second : Nested back) : Nested (front ++ back) := by
  have placed : Nested (front ++ (back ++ [])) ↔ Nested (front ++ []) := second.insert_iff
  rw [List.append_nil, List.append_nil] at placed
  exact placed.mpr first

/-! ## Parts of a text -/

/-- What a text does to the awaited brackets: it closes some and awaits others. -/
theorem exists_frame (read : awaited? stack text = some final) : ∃ closed opened, ∀ before after,
    awaited? before text = some after ↔ ∃ below, before = closed ++ below ∧ after = opened ++ below := by
  induction text generalizing stack with
  | nil =>
      refine ⟨[], [], fun before after => ?_⟩
      constructor
      · intro same
        exact ⟨before, rfl, (Option.some.inj same).symm⟩
      · rintro ⟨below, rfl, rfl⟩
        rfl
  | cons c text inductionHypothesis =>
      rcases bracket_cases c with ⟨d, closes⟩ | closer | plain
      · rw [awaited?_opener closes] at read
        obtain ⟨closed, opened, frame⟩ := inductionHypothesis read
        -- The bracket is closed by the text itself, or it stays awaited.
        cases closed with
        | nil =>
            refine ⟨[], opened ++ [d], fun before after => ?_⟩
            rw [awaited?_opener closes, frame]
            constructor
            · rintro ⟨below, same, rfl⟩
              obtain rfl : d :: before = below := same
              exact ⟨before, rfl, by simp⟩
            · rintro ⟨below, same, rfl⟩
              obtain rfl : before = below := same
              exact ⟨d :: before, rfl, by simp⟩
        | cons e closed =>
            obtain ⟨_, same, _⟩ := (frame _ _).mp read
            obtain ⟨rfl, _⟩ := List.cons.inj same
            refine ⟨closed, opened, fun before after => ?_⟩
            rw [awaited?_opener closes, frame]
            simp
      · obtain ⟨_, _, read⟩ := (awaited?_closer_iff closer).mp read
        obtain ⟨closed, opened, frame⟩ := inductionHypothesis read
        refine ⟨c :: closed, opened, fun before after => ?_⟩
        rw [awaited?_closer_iff closer]
        constructor
        · rintro ⟨_, rfl, others⟩
          obtain ⟨below, rfl, rfl⟩ := (frame _ _).mp others
          exact ⟨below, rfl, rfl⟩
        · rintro ⟨below, rfl, rfl⟩
          exact ⟨closed ++ below, rfl, (frame _ _).mpr ⟨below, rfl, rfl⟩⟩
      · rw [awaited?_other plain] at read
        obtain ⟨closed, opened, frame⟩ := inductionHypothesis read
        refine ⟨closed, opened, fun before after => ?_⟩
        rw [awaited?_other plain, frame]

/-- Opening parentheses await as many closing ones. -/
theorem awaited?_opening (count : Nat) (stack : List Char) :
    awaited? stack (List.replicate count '(') = some (List.replicate count ')' ++ stack) := by
  induction count generalizing stack with
  | zero => rfl
  | succ count inductionHypothesis =>
      rw [List.replicate_succ, awaited?_opener rfl, inductionHypothesis, List.replicate_succ', List.append_assoc]
      rfl

/-- Closing parentheses must be awaited. -/
theorem awaited?_closing_iff {count : Nat} :
    awaited? stack (List.replicate count ')') = some [] ↔ stack = List.replicate count ')' := by
  induction count generalizing stack with
  | zero => exact Option.some_inj
  | succ count inductionHypothesis =>
      rw [List.replicate_succ, awaited?_closer_iff rfl]
      simp only [inductionHypothesis]
      exact ⟨fun ⟨_, same, same'⟩ => by rw [same, same'], fun same => ⟨_, same, rfl⟩⟩

/-- A text that moves over a character consists of it. -/
theorem eq_replicate_of_moves (moves : text ++ [d] = c :: text) : d = c ∧ text = List.replicate text.length c := by
  induction text with
  | nil => exact ⟨(List.cons.inj moves).1, rfl⟩
  | cons e text inductionHypothesis =>
      obtain ⟨rfl, rest⟩ := List.cons.inj moves
      obtain ⟨same, whole⟩ := inductionHypothesis rest
      exact ⟨same, by rw [List.length_cons, List.replicate_succ, ← whole]⟩

/-- A part of a nested text can be put between parentheses exactly if its brackets that are paired with others are
parentheses. -/
theorem nested_argument_iff (nested : Nested (front ++ (inner ++ back))) :
    Nested (front ++ '(' :: (inner ++ ')' :: back))
      ↔ ∃ opening closing, Nested (List.replicate opening '(' ++ (inner ++ List.replicate closing ')')) := by
  simp only [nested_iff, awaited?_append, Option.bind_eq_some_iff, awaited?_opening, awaited?_closing_iff,
    Option.some.injEq, exists_eq_left', exists_eq_right] at nested ⊢
  obtain ⟨before, ahead, after, read, behind⟩ := nested
  obtain ⟨closed, opened, frame⟩ := exists_frame read
  obtain ⟨below, rfl, rfl⟩ := (frame _ _).mp read
  have opening (rest : List Char) :
      awaited? (closed ++ below) ('(' :: rest) = awaited? (')' :: (closed ++ below)) rest :=
    awaited?_opener rfl _ rest
  have closing (stack : List Char) : awaited? stack (')' :: back) = some []
      ↔ ∃ below, stack = ')' :: below ∧ awaited? below back = some [] := awaited?_closer_iff rfl
  simp only [ahead, Option.some.injEq, exists_eq_left', opening, awaited?_append, Option.bind_eq_some_iff, frame,
    closing]
  constructor
  · rintro ⟨_, ⟨stack, same, rfl⟩, behind', same', others⟩
    -- What stands behind can be read with nothing else awaited.
    obtain rfl : behind' = opened ++ below := by
      obtain ⟨closed', opened', frame'⟩ := exists_frame behind
      obtain ⟨rest, whole, empty⟩ := (frame' _ _).mp behind
      obtain ⟨rest', whole', empty'⟩ := (frame' _ _).mp others
      rw [whole, whole', (List.append_eq_nil_iff.mp empty.symm).2, (List.append_eq_nil_iff.mp empty'.symm).2]
    -- The awaited brackets move over the parenthesis, so they are parentheses.
    obtain ⟨last, rest, rfl⟩ : ∃ last rest, stack = last :: rest := by
      have lengths := congrArg List.length same
      simp only [List.length_cons, List.length_append] at lengths
      exact List.exists_cons_of_length_pos (by omega)
    have grouped : (closed ++ [last]) ++ rest = (')' :: closed) ++ below := by simpa using same.symm
    obtain ⟨moves, rfl⟩ := List.append_inj grouped (by simp)
    obtain ⟨rfl, allClosed⟩ := eq_replicate_of_moves moves
    have grouped' : (opened ++ [')']) ++ rest = (')' :: opened) ++ rest := by simpa using same'
    obtain ⟨_, allOpened⟩ := eq_replicate_of_moves (List.append_cancel_right grouped')
    exact ⟨closed.length, opened.length, [], by simpa using allClosed.symm, by simpa using allOpened.symm⟩
  · rintro ⟨count, count', rest, same, same'⟩
    rw [List.append_nil, eq_comm, List.append_eq_replicate_iff] at same
    rw [eq_comm, List.append_eq_replicate_iff] at same'
    have moves (count : Nat) :
        List.replicate count ')' ++ ')' :: below = ')' :: (List.replicate count ')' ++ below) := by
      rw [← List.cons_append, ← List.replicate_succ, List.replicate_succ', List.append_assoc]
      rfl
    refine ⟨_, ⟨')' :: below, ?_, rfl⟩, opened ++ below, ?_, behind⟩
    · rw [same.2.1, moves]
    · rw [same'.2.1, moves]

end Scaffold.Text
