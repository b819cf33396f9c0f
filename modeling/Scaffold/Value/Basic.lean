import Scaffold.Value.Moment

/-!
# Dynamic values

The data that manifests, parameters and structured files carry: scalars, lists and mappings.  A mapping
keeps its entries in the order in which their keys first appeared, and may have any scalar as key.
Numbers and truth values that are equal as numbers are the same key.

A JSON text may name one half of a character beyond the basic plane without the other.  Such a text has no
encoding; it is a scalar of its own (`TornText`), so that every other text is one of characters.
-/

namespace Scaffold

open Scaffold.Decimal

/-- Half of a character beyond the basic plane: one of the two codes that such a character has in UTF-16. -/
structure Half where
  code : Nat
  isHalf : 0xD800 ≤ code ∧ code < 0xE000
  deriving DecidableEq, Repr

/-- A part of a text as JSON writes it. -/
inductive Piece where
  | whole (c : Char)
  | half (half : Half)
  deriving DecidableEq, Repr

/-- A text with a lone half: the characters before the first one, and what follows it. -/
structure TornText where
  before : List Char
  half : Half
  rest : List Piece
  deriving DecidableEq, Repr

/-- The parts of a torn text in order. -/
def TornText.pieces (torn : TornText) : List Piece :=
  torn.before.map Piece.whole ++ .half torn.half :: torn.rest

/-- A torn text with a character in place of every lone half. -/
def TornText.filled (fill : Char) (torn : TornText) : String :=
  String.ofList (torn.pieces.map fun piece =>
    match piece with
    | .whole c => c
    | .half _ => fill)

/-- Joins pieces to a text, unless one of them is a half. -/
def Piece.join : List Piece → Except TornText (List Char)
  | [] => .ok []
  | .half lone :: rest => .error ⟨[], lone, rest⟩
  | .whole c :: rest =>
    match join rest with
    | .ok content => .ok (c :: content)
    | .error torn => .error { torn with before := c :: torn.before }

/-- Characters are joined to their text. -/
@[simp] theorem Piece.join_whole (content : List Char) : join (content.map whole) = .ok content := by
  induction content with
  | nil => rfl
  | cons c rest inductionHypothesis => simp only [List.map_cons, join, inductionHypothesis]

/-- A value without parts. -/
inductive Scalar where
  | null
  | bool (value : Bool)
  | int (value : Int)
  | float (value : Binary64)
  | text (value : String)
  | torn (value : TornText)
  | moment (value : Moment)
  deriving DecidableEq, Repr, Inhabited

/-- Scalars, lists and mappings. -/
inductive Value where
  | scalar (scalar : Scalar)
  | list (items : List Value)
  | mapping (entries : List (Scalar × Value))
  deriving BEq, Repr, Inhabited

/-- The entries of a mapping in order. -/
abbrev Entries := List (Scalar × Value)

namespace Scalar

/-- The first lone half of a scalar. -/
def half? : Scalar → Option Half
  | .torn value => some value.half
  | _ => none

/-- A scalar with a character in place of every lone half. -/
def filled (fill : Char) : Scalar → Scalar
  | .torn value => .text (value.filled fill)
  | content => content

/-- The integer that a scalar equals, if it equals one. -/
def asInt? : Scalar → Option Int
  | .bool value => some (if value then 1 else 0)
  | .int value => some value
  | .float value => value.toInt?
  | _ => none

/-- Two scalars name the same key. -/
def sameKey (left right : Scalar) : Bool :=
  match left, right with
  | .text first, .text second => first == second
  | .float first, .float second => first.same second
  | _, _ =>
    match left.asInt?, right.asInt? with
    | some first, some second => first == second
    | _, _ => left == right

@[simp] theorem sameKey_text (first second : String) :
    sameKey (.text first) (.text second) = (first == second) := rfl

end Scalar

namespace Value

/-- The absent value. -/
@[match_pattern] abbrev null : Value := .scalar .null

/-- A truth value. -/
@[match_pattern] abbrev bool (value : Bool) : Value := .scalar (.bool value)

/-- An integer. -/
@[match_pattern] abbrev int (value : Int) : Value := .scalar (.int value)

/-- A double precision number. -/
@[match_pattern] abbrev float (value : Binary64) : Value := .scalar (.float value)

/-- A text. -/
@[match_pattern] abbrev text (value : String) : Value := .scalar (.text value)

/-- A text with a lone half. -/
@[match_pattern] abbrev torn (value : TornText) : Value := .scalar (.torn value)

/-- A date or time. -/
@[match_pattern] abbrev moment (value : Moment) : Value := .scalar (.moment value)

mutual

/-- The first lone half inside of a value, in keys too. -/
def half? : Value → Option Half
  | .scalar content => content.half?
  | .list items => halfOfItems? items
  | .mapping entries => halfOfEntries? entries
termination_by structural value => value

/-- The first lone half inside of items. -/
def halfOfItems? : List Value → Option Half
  | [] => none
  | item :: rest => item.half? <|> halfOfItems? rest
termination_by structural items => items

/-- The first lone half inside of entries; a key comes before its value. -/
def halfOfEntries? : List (Scalar × Value) → Option Half
  | [] => none
  | (key, value) :: rest => key.half? <|> value.half? <|> halfOfEntries? rest
termination_by structural entries => entries

end

mutual

/-- A value with a character in place of every lone half. -/
def filled (fill : Char) : Value → Value
  | .scalar content => .scalar (content.filled fill)
  | .list items => .list (filledItems fill items)
  | .mapping entries => .mapping (filledEntries fill entries)
termination_by structural value => value

/-- Items with a character in place of every lone half. -/
def filledItems (fill : Char) : List Value → List Value
  | [] => []
  | item :: rest => item.filled fill :: filledItems fill rest
termination_by structural items => items

/-- Entries with a character in place of every lone half. -/
def filledEntries (fill : Char) : List (Scalar × Value) → List (Scalar × Value)
  | [] => []
  | (key, value) :: rest => (key.filled fill, value.filled fill) :: filledEntries fill rest
termination_by structural entries => entries

end

/-- The absent value is the only one that counts as missing. -/
def isNull : Value → Bool
  | .null => true
  | _ => false

end Value

namespace Entries

/-- The value under a key. -/
def get? (entries : Entries) (key : Scalar) : Option Value :=
  (entries.find? fun entry => entry.1.sameKey key).map (·.2)

/-- The value under a text key. -/
def field? (entries : Entries) (name : String) : Option Value := get? entries (.text name)

/-- Whether a key is present. -/
def has (entries : Entries) (key : Scalar) : Bool := (get? entries key).isSome

/-- Puts a value under a key: at the key's place if it is present, else at the end. -/
def insert : Entries → Scalar → Value → Entries
  | [], key, value => [(key, value)]
  | (present, old) :: rest, key, value =>
    if present.sameKey key then (present, value) :: rest
    else (present, old) :: insert rest key value

/-- Removes a key. -/
def erase (entries : Entries) (key : Scalar) : Entries :=
  entries.filter fun entry => !entry.1.sameKey key

/-- Puts every entry of `upper`, in order, into `lower`. -/
def overlay (lower upper : Entries) : Entries :=
  upper.foldl (fun entries entry => insert entries entry.1 entry.2) lower

/-- The mapping of a list of pairs: of a repeated key the last value counts, at the first place. -/
def ofPairs (pairs : List (Scalar × Value)) : Entries := overlay [] pairs

@[simp] theorem get?_nil (key : Scalar) : get? [] key = none := rfl

@[simp] theorem overlay_nil (lower : Entries) : overlay lower [] = lower := rfl

@[simp] theorem overlay_cons (lower upper : Entries) (key : Scalar) (value : Value) :
    overlay lower ((key, value) :: upper) = overlay (insert lower key value) upper := rfl

end Entries

/-- A list of texts as a value. -/
def Value.texts (items : List String) : Value := .list (items.map Value.text)

/-- A text that may be absent. -/
def Value.optionalText : Option String → Value
  | none => .null
  | some content => .text content

/-- A mapping with text keys. -/
def Value.record (fields : List (String × Value)) : Value :=
  .mapping (fields.map fun field => (.text field.1, field.2))

end Scaffold
