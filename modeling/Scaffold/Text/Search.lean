/-!
# Searching in texts

First occurrences, cuts and replacements over lists of characters, and patterns in which a star stands for
any characters, also none.
-/

namespace Scaffold.Text

/-- The text before the first occurrence of `separator` and the text after it. -/
def cutAt? (separator : List Char) : List Char → Option (List Char × List Char)
  | [] => if separator.isEmpty then some ([], []) else none
  | c :: rest =>
    if separator.isPrefixOf (c :: rest) then some ([], (c :: rest).drop separator.length)
    else (cutAt? separator rest).map fun parts => (c :: parts.1, parts.2)

/-- Whether `block` occurs anywhere in the text. -/
def occursIn (block : List Char) : List Char → Bool
  | [] => block.isEmpty
  | c :: rest => block.isPrefixOf (c :: rest) || occursIn block rest

/-- The text before the first `separator` and the text after it; without one, all of the text and
nothing. -/
def partitionAt (separator : Char) (text : List Char) : List Char × List Char :=
  (text.takeWhile (· != separator), (text.dropWhile (· != separator)).drop 1)

/-- The pieces between the occurrences of one character; always at least one piece. -/
def splitAtChar (separator : Char) : List Char → List (List Char)
  | [] => [[]]
  | c :: rest =>
    if c == separator then [] :: splitAtChar separator rest
    else match splitAtChar separator rest with
      | [] => [[c]]
      | piece :: pieces => (c :: piece) :: pieces

/-- Joins pieces with a separator between them. -/
def joinWith (separator : List Char) : List (List Char) → List Char
  | [] => []
  | [piece] => piece
  | piece :: rest => piece ++ separator ++ joinWith separator rest

/-- `splitAtChar` on strings. -/
def splitOnChar (separator : Char) (text : String) : List String :=
  (splitAtChar separator text.toList).map String.ofList

/-- Whether the string `block` occurs in `text`. -/
def contains (text block : String) : Bool := occursIn block.toList text.toList

/-- Whether `text` starts with `start`. -/
def startsWith (text start : String) : Bool := start.toList.isPrefixOf text.toList

/-- A cut at the first separator puts the text back together. -/
theorem append_of_cutAt? {separator text before after : List Char}
    (found : cutAt? separator text = some (before, after)) : before ++ separator ++ after = text := by
  induction text generalizing before with
  | nil =>
    simp only [cutAt?] at found
    split at found <;> simp_all
  | cons c rest inductionHypothesis =>
    simp only [cutAt?] at found
    split at found
    · next starts =>
      obtain ⟨tail, equal⟩ := List.isPrefixOf_iff_prefix.mp starts
      simp only [Option.some.injEq, Prod.mk.injEq] at found
      obtain ⟨rfl, rfl⟩ := found
      simp [← equal]
    · obtain ⟨parts, inner, equal⟩ := Option.map_eq_some_iff.mp found
      cases equal
      simpa using inductionHypothesis inner

/-! ## Patterns with stars -/

/-- Whether some end of the text, the whole text included, passes a test. -/
def someTail (test : List Char → Bool) : List Char → Bool
  | [] => test []
  | c :: rest => test (c :: rest) || someTail test rest

/-- Whether a text matches a pattern. -/
def matchesPattern : List Char → List Char → Bool
  | [], text => text.isEmpty
  | '*' :: pattern, text => someTail (matchesPattern pattern) text
  | p :: pattern, text =>
    match text with
    | [] => false
    | c :: rest => p == c && matchesPattern pattern rest

end Scaffold.Text
