/-!
# Blank characters

White space in the Unicode sense, the information separators `U+001C` to `U+001F` included.
Trimming removes blanks, or any other class, from the ends of a text.

A class of characters is given as a list of closed code point intervals.  The modules beside this one
name other classes; the only operation is membership.
-/

namespace Scaffold.Text

/-- Closed intervals of code points, in increasing order. -/
abbrev CharRanges := List (Nat × Nat)

/-- A character belongs to the ranges when some interval holds its code point. -/
def CharRanges.holds (ranges : CharRanges) (c : Char) : Bool :=
  ranges.any fun range => range.1 ≤ c.toNat && c.toNat ≤ range.2

theorem CharRanges.holds_iff (ranges : CharRanges) (c : Char) :
    ranges.holds c = true ↔ ∃ range ∈ ranges, range.1 ≤ c.toNat ∧ c.toNat ≤ range.2 := by
  simp [CharRanges.holds]

/-- The blank code points. -/
def blankRanges : CharRanges :=
  [(0x9, 0xD), (0x1C, 0x20), (0x85, 0x85), (0xA0, 0xA0), (0x1680, 0x1680), (0x2000, 0x200A),
   (0x2028, 0x2029), (0x202F, 0x202F), (0x205F, 0x205F), (0x3000, 0x3000)]

/-- White space of any kind. -/
def isBlank (c : Char) : Bool := blankRanges.holds c

/-- Drops the leading characters of a class. -/
def trimLeftWhere (drop : Char → Bool) (text : List Char) : List Char := text.dropWhile drop

/-- Drops the trailing characters of a class. -/
def trimRightWhere (drop : Char → Bool) (text : List Char) : List Char :=
  (text.reverse.dropWhile drop).reverse

/-- Drops the characters of a class from both ends. -/
def trimWhere (drop : Char → Bool) (text : List Char) : List Char :=
  trimRightWhere drop (trimLeftWhere drop text)

/-- Drops blanks from both ends. -/
def trim (text : List Char) : List Char := trimWhere isBlank text

/-- Drops trailing blanks. -/
def trimRight (text : List Char) : List Char := trimRightWhere isBlank text

/-- A text without a visible character. -/
def isAllBlank (text : List Char) : Bool := text.all isBlank

/-- `trim` on strings. -/
def trimmed (text : String) : String := String.ofList (trim text.toList)

@[simp] theorem trimLeftWhere_nil (drop : Char → Bool) : trimLeftWhere drop [] = [] := rfl

@[simp] theorem trimRightWhere_nil (drop : Char → Bool) : trimRightWhere drop [] = [] := rfl

@[simp] theorem trim_nil : trim [] = [] := rfl

end Scaffold.Text
