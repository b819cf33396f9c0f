import Scaffold.Text.Case
import Scaffold.Text.Search
import Scaffold.Text.Blank

/-!
# Styles of names

A name in the four styles that generated files use: with hyphens, with underscores, and with capital
letters, the first of them large or small.
-/

namespace Scaffold.Text

/-- An ASCII lower-case letter. -/
def isSmall (c : Char) : Bool := 'a' ≤ c && c ≤ 'z'

/-- An ASCII upper-case letter. -/
def isLarge (c : Char) : Bool := 'A' ≤ c && c ≤ 'Z'

/-- A lower-case letter or a digit. -/
def isSmallOrDigit (c : Char) : Bool := isSmall c || ('0' ≤ c && c ≤ '9')

/-- Replaces every longest run of characters of a class by one character; `inRun` says whether a run
stands before the text. -/
def squeeze (drop : Char → Bool) (mark : Char) (inRun : Bool) : List Char → List Char
  | [] => []
  | c :: rest =>
    if drop c then if inRun then squeeze drop mark true rest else mark :: squeeze drop mark true rest
    else c :: squeeze drop mark false rest

/-- Lower-case letters and digits with single hyphens between them. -/
def slug (name : List Char) : List Char :=
  trimWhere (· == '-') (squeeze (fun c => !isSmallOrDigit c) '-' false (trim (lower name)))

/-- A character that separates words: a hyphen, an underscore or a blank. -/
def isWordBreak (c : Char) : Bool := c == '-' || c == '_' || isBlank c

/-- The words of a name with a capital first letter; `atStart` says whether a word starts here. -/
def capitalize (atStart : Bool) : List Char → List Char
  | [] => []
  | c :: rest =>
    if isWordBreak c then capitalize true rest
    else if atStart then upperChar c ++ capitalize false rest
    else c :: capitalize false rest

/-- Words with capital first letters, joined. -/
def pascal (name : List Char) : List Char := capitalize true name

/-- Puts an underscore before a capital letter that small letters follow, unless a line starts there.
Letters that belong to such a word are passed over. -/
def breakWords : List Char → List Char
  | before :: large :: small :: rest =>
    if before != '\n' && isLarge large && isSmall small then
      before :: '_' :: large :: small :: rest.takeWhile isSmall ++ breakWords (rest.dropWhile isSmall)
    else before :: breakWords (large :: small :: rest)
  | short => short
termination_by text => text.length
decreasing_by
  · have := (List.dropWhile_suffix (l := rest) isSmall).length_le
    simp only [List.length_cons]
    omega
  · simp

/-- Puts an underscore between a small letter or digit and a capital letter. -/
def breakCapitals : List Char → List Char
  | before :: large :: rest =>
    if isSmallOrDigit before && isLarge large then before :: '_' :: large :: breakCapitals rest
    else before :: breakCapitals (large :: rest)
  | short => short
termination_by text => text.length

/-- Lower-case words with underscores between them. -/
def snake (name : List Char) : List Char :=
  lower (squeeze (fun c => c == '-' || isBlank c) '_' false (breakCapitals (breakWords name)))

/-- Words with capital first letters, joined, but for a small letter at the start. -/
def camel (name : List Char) : List Char :=
  match pascal name with
  | [] => []
  | c :: rest => lower [c] ++ rest

end Scaffold.Text
