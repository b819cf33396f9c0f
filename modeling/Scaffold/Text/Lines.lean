/-!
# Lines

A line ends at a line feed, a carriage return, the pair of both, or one of the other vertical
separators of Unicode.  `linesWithEnds` cuts a text after each terminator, so its pieces concatenate
to the text; `lines` is the same list without the terminators.
-/

namespace Scaffold.Text

/-- The characters that end a line. -/
def isLineEnd (c : Char) : Bool :=
  c == '\n' || c == '\r' || c == '\x0b' || c == '\x0c' || c == '\x1c' || c == '\x1d' || c == '\x1e' ||
    c == '\u0085' || c == '\u2028' || c == '\u2029'

/-- Puts a character in front of the first piece. -/
def prependToFirst (c : Char) : List (List Char) → List (List Char)
  | [] => [[c]]
  | piece :: rest => (c :: piece) :: rest

/-- The lines of a text, each with the terminator that ends it. -/
def linesWithEnds : List Char → List (List Char)
  | [] => []
  | '\r' :: '\n' :: rest => ['\r', '\n'] :: linesWithEnds rest
  | c :: rest => if isLineEnd c then [c] :: linesWithEnds rest else prependToFirst c (linesWithEnds rest)

/-- The lines of a text without their terminators.  A text that ends with a terminator has no empty
last line. -/
def lines : List Char → List (List Char)
  | [] => []
  | '\r' :: '\n' :: rest => [] :: lines rest
  | c :: rest => if isLineEnd c then [] :: lines rest else prependToFirst c (lines rest)

/-- `lines` on strings. -/
def linesOf (text : String) : List String := (lines text.toList).map String.ofList

@[simp] theorem flatten_prependToFirst (c : Char) (pieces : List (List Char)) :
    (prependToFirst c pieces).flatten = c :: pieces.flatten := by
  cases pieces <;> rfl

/-- Cutting into lines loses no character. -/
theorem flatten_linesWithEnds (text : List Char) : (linesWithEnds text).flatten = text := by
  fun_induction linesWithEnds text with
  | case1 => rfl
  | case2 rest inductionHypothesis => simp [inductionHypothesis]
  | case3 c rest _ _ inductionHypothesis => simp [inductionHypothesis]
  | case4 c rest _ _ inductionHypothesis => simp [inductionHypothesis]

end Scaffold.Text
