import Scaffold.Text.Blank
import Scaffold.Text.Search
import Scaffold.Text.Word

/-!
# Template tokens

A template is text with tags between double braces.  A tag opens or closes a conditional block, refers
to a value, or is none of these and stays text.  Every token keeps the characters it was read from, and
`flatten_raw_tokenize` says that these give back the template.
-/

namespace Scaffold.Template

/-- A piece of a template. -/
inductive Token where
  | text (raw : List Char)
  | opening (condition raw : List Char)
  | closing (raw : List Char)
  | variable (reference raw : List Char)
  /-- A tag that does not end before the template does. -/
  | unterminated (raw : List Char)
  deriving DecidableEq, Repr

/-- The characters that a token was read from. -/
def Token.raw : Token → List Char
  | .text raw => raw
  | .opening _ raw => raw
  | .closing raw => raw
  | .variable _ raw => raw
  | .unterminated raw => raw

/-- The start of a tag. -/
def tagStart : List Char := ['\x7b', '\x7b']

/-- The end of a tag. -/
def tagEnd : List Char := ['\x7d', '\x7d']

/-- A character inside a segment of a reference. -/
def isReferenceChar (c : Char) : Bool := Text.isWord c || c == '-'

/-- An ASCII letter or an underscore. -/
def isReferenceStart (c : Char) : Bool :=
  ('a' ≤ c && c ≤ 'z') || ('A' ≤ c && c ≤ 'Z') || c == '_'

/-- A reference: segments separated by dots, the first of them starting with a letter. -/
def isReference (text : List Char) : Bool :=
  let segments := Text.splitAtChar '.' text
  segments.all (fun segment => !segment.isEmpty && segment.all isReferenceChar)
    && (text.head?.map isReferenceStart).getD false

/-- The word that opens a block. -/
def openingWord : List Char := ['#', 'i', 'f']

/-- The word that closes a block. -/
def closingWord : List Char := ['/', 'i', 'f']

/-- The condition of an opening tag whose trimmed inside is given. -/
def conditionOf? (inside : List Char) : Option (List Char) :=
  if openingWord.isPrefixOf inside then
    match inside.drop openingWord.length with
    | c :: rest => if Text.isBlank c then some (Text.trim rest) else none
    | [] => none
  else none

/-- The token of a complete tag with the given inside. -/
def tagToken (inside : List Char) : Token :=
  let raw := tagStart ++ inside ++ tagEnd
  let trimmed := Text.trim inside
  match conditionOf? trimmed with
  | some condition => .opening condition raw
  | none =>
    if trimmed == closingWord then .closing raw
    else if isReference trimmed then .variable trimmed raw
    else .text raw

@[simp] theorem raw_tagToken (inside : List Char) :
    (tagToken inside).raw = tagStart ++ inside ++ tagEnd := by
  simp only [tagToken]
  split
  · rfl
  · split
    · rfl
    · split <;> rfl

/-- Plain text as a token; no token for no text. -/
def textTokens (raw : List Char) : List Token := if raw.isEmpty then [] else [.text raw]

theorem flatten_textTokens (raw : List Char) :
    ((textTokens raw).map Token.raw).flatten = raw := by
  unfold textTokens
  split
  · simp_all
  · simp [Token.raw]

/-- The tokens of a template. -/
def tokenize (template : List Char) : List Token :=
  match _started : Text.cutAt? tagStart template with
  | none => textTokens template
  | some (before, tag) =>
    match _ended : Text.cutAt? tagEnd tag with
    | none => textTokens before ++ [.unterminated (tagStart ++ tag)]
    | some (inside, after) => textTokens before ++ tagToken inside :: tokenize after
termination_by template.length
decreasing_by
  have whole := congrArg List.length (Text.append_of_cutAt? _started)
  have inner := congrArg List.length (Text.append_of_cutAt? _ended)
  simp only [List.length_append, tagStart, tagEnd, List.length_cons, List.length_nil] at whole inner
  omega

/-- Tokenizing loses no character. -/
theorem flatten_raw_tokenize (template : List Char) :
    ((tokenize template).map Token.raw).flatten = template := by
  fun_induction tokenize template with
  | case1 template _ => exact flatten_textTokens template
  | case2 template before tag started _ =>
    simp [flatten_textTokens, Token.raw, ← Text.append_of_cutAt? started]
  | case3 template before tag started inside after ended inductionHypothesis =>
    simp [flatten_textTokens, inductionHypothesis, ← Text.append_of_cutAt? started,
      ← Text.append_of_cutAt? ended]

end Scaffold.Template
