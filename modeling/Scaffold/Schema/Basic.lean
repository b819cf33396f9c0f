import Scaffold.Value.Display
import Scaffold.Path

/-!
# Checking data against a shape

Data from outside is checked field by field, and every mismatch is reported, not only the first.  An
issue names its place in the data and its cause.  Checks are combined so that the issues of the parts
follow each other in the order of the parts.

What a field of some type accepts, and as what, is the business of a library for checks.  It is no part of this
program, and given as a `Schema`; `Schema.IsSound` is what the program relies on.
-/

namespace Scaffold

/-- Something wrong with data: the keys and positions that lead to it, and the wording. -/
structure Issue where
  place : List String
  message : String
  deriving DecidableEq, Repr

/-- An issue on one line: its place and the wording. -/
def Issue.text (issue : Issue) : String :=
  String.intercalate "." issue.place ++ ": " ++ issue.message

/-- The outcome of a check: a result, or the issues found, at least one of them. -/
inductive Checked (α : Type) where
  | accepted (result : α)
  | refused (first : Issue) (others : List Issue)
  deriving Repr

namespace Checked

variable {α β : Type}

/-- A check that fails with one issue at the current place. -/
def fail (message : String) : Checked α := .refused ⟨[], message⟩ []

/-- The issues of a check. -/
def issues : Checked α → List Issue
  | .accepted _ => []
  | .refused first others => first :: others

/-- Changes the result. -/
def map (change : α → β) : Checked α → Checked β
  | .accepted result => .accepted (change result)
  | .refused first others => .refused first others

/-- Both checks; the issues of the first come first. -/
def seq (left : Checked (α → β)) (right : Unit → Checked α) : Checked β :=
  match left, right () with
  | .accepted change, .accepted result => .accepted (change result)
  | .accepted _, .refused first others => .refused first others
  | .refused first others, right => .refused first (others ++ right.issues)

instance : Applicative Checked where
  pure := .accepted
  map := map
  seq := seq

/-- Moves a check one level down: its issues are placed under a key or position. -/
def under (step : String) : Checked α → Checked α
  | .accepted result => .accepted result
  | .refused first others =>
    let deeper (issue : Issue) : Issue := ⟨step :: issue.place, issue.message⟩
    .refused (deeper first) (others.map deeper)

/-- A further check of an accepted result. -/
def andThen (check : Checked α) (next : α → Checked β) : Checked β :=
  match check with
  | .accepted result => next result
  | .refused first others => .refused first others

/-- The result, or the issues. -/
def toExcept : Checked α → Except (List Issue) α
  | .accepted result => .ok result
  | .refused first others => .error (first :: others)

/-- A check followed by a check without a result. -/
def followedBy (check : Checked α) (last : Checked Unit) : Checked α :=
  (fun result _ => result) <$> check <*> last

end Checked

/-- The checks that a library offers, for the types and the fields that records are declared with. -/
structure Schema where
  text : Value → Checked String
  /-- A text with at least one character. -/
  nonemptyText : Value → Checked String
  boolean : Value → Checked Bool
  /-- An integer that is not below a bound. -/
  integerFrom : Int → Value → Checked Int
  path : Value → Checked Path
  /-- Something, or nothing. -/
  orNull : {α : Type} → (Value → Checked α) → Value → Checked (Option α)
  /-- A mapping with text keys and any values. -/
  mapping : Value → Checked Entries
  /-- A mapping with text keys, or else a text. -/
  mappingOrText : Value → Checked (Entries ⊕ String)
  /-- One of several words. -/
  oneOf : {α : Type} → List (String × α) → Value → Checked α
  listOf : {α : Type} → (Value → Checked α) → Value → Checked (List α)
  /-- A list with at least one item. -/
  nonemptyListOf : {α : Type} → (Value → Checked α) → Value → Checked (List α)
  /-- A record that is declared under a name, with a check of its entries. -/
  record : {α : Type} → String → (Entries → Checked α) → Value → Checked α
  /-- A record whose kind is told by a field with one of several words. -/
  tagged : {κ α : Type} → String → List (String × κ) → (κ → Entries → Checked α) → Value → Checked α
  /-- A field that must be present. -/
  required : {α : Type} → Entries → String → (Value → Checked α) → Checked α
  /-- A field that may be absent.  It may have several names, of which the first that is there counts. -/
  optional : {α : Type} → Entries → List String → α → (Value → Checked α) → Checked α
  /-- No entry is there but the fields of some names. -/
  onlyFields : Entries → List (List String) → Checked Unit
  /-- A condition of the program itself is not met. -/
  rejected : {α : Type} → String → Checked α

namespace Schema

/-- A text that must be present. -/
def requiredText (schema : Schema) (entries : Entries) (name : String) : Checked String :=
  schema.required entries name schema.text

/-- A text that may be absent, or null. -/
def optionalText (schema : Schema) (entries : Entries) (names : List String) : Checked (Option String) :=
  schema.optional entries names none (schema.orNull schema.text)

end Schema

/-- The keys of entries are texts. -/
def Entries.HasTextKeys (entries : Entries) : Prop := ∀ entry ∈ entries, ∃ name, entry.1 = .text name

/-- What the program relies on: a value of a declared type is accepted as it is, what is accepted has the declared
type, and records and lists are accepted if their parts are. -/
structure Schema.IsSound (schema : Schema) : Prop where
  text (given : String) : schema.text (.text given) = .accepted given
  boolean (flag : Bool) : schema.boolean (.bool flag) = .accepted flag
  orNull_null {α : Type} (check : Value → Checked α) : schema.orNull check .null = .accepted none
  orNull {α : Type} {check : Value → Checked α} {value : Value} {result : α} (some : value ≠ .null)
    (accepted : check value = .accepted result) : schema.orNull check value = .accepted (.some result)
  mapping {value : Value} {entries : Entries} :
    schema.mapping value = .accepted entries ↔ value = .mapping entries ∧ entries.HasTextKeys
  mappingOrText_text (given : String) : schema.mappingOrText (.text given) = .accepted (.inr given)
  mappingOrText {value : Value} {entries : Entries} :
    schema.mappingOrText value = .accepted (.inl entries) ↔ schema.mapping value = .accepted entries
  oneOf {α : Type} {options : List (String × α)} {word : String} {meant : α}
    (listed : options.lookup word = some meant) : schema.oneOf options (.text word) = .accepted meant
  listOf {α : Type} {check : Value → Checked α} {value : Value} {results : List α} :
    schema.listOf check value = .accepted results
      ↔ ∃ items, value = .list items ∧ items.map check = results.map .accepted
  nonemptyListOf {α : Type} {check : Value → Checked α} {value : Value} {results : List α} :
    schema.nonemptyListOf check value = .accepted results
      ↔ schema.listOf check value = .accepted results ∧ results ≠ []
  record {α : Type} {name : String} {check : Entries → Checked α} {value : Value} {result : α} :
    schema.record name check value = .accepted result
      ↔ ∃ entries, value = .mapping entries ∧ check entries = .accepted result
  tagged {κ α : Type} {field : String} {kinds : List (String × κ)} {check : κ → Entries → Checked α}
    {value : Value} {result : α} :
    schema.tagged field kinds check value = .accepted result
      ↔ ∃ entries word kind, value = .mapping entries ∧ Entries.field? entries field = some (.text word)
        ∧ kinds.lookup word = some kind ∧ check kind entries = .accepted result
  required {α : Type} {entries : Entries} {name : String} {check : Value → Checked α} {result : α} :
    schema.required entries name check = .accepted result
      ↔ ∃ value, entries.field? name = some value ∧ check value = .accepted result
  /-- A field that is given under its first name is accepted if its value is. -/
  optional {α : Type} {entries : Entries} {name : String} {others : List String} {missing result : α}
    {check : Value → Checked α} {value : Value} (found : entries.field? name = some value)
    (accepted : check value = .accepted result) :
    schema.optional entries (name :: others) missing check = .accepted result
  /-- What a field holds that may be absent is its default, or was accepted. -/
  exists_of_optional {α : Type} {entries : Entries} {names : List String} {missing result : α}
    {check : Value → Checked α} (accepted : schema.optional entries names missing check = .accepted result) :
    result = missing ∨ ∃ value, check value = .accepted result
  /-- Entries under first names of fields pass. -/
  onlyFields {entries : Entries} {fields : List (List String)}
    (known : ∀ entry ∈ entries, ∃ names ∈ fields, ∃ name, names.head? = some name ∧ entry.1 = .text name) :
    schema.onlyFields entries fields = .accepted ()

end Scaffold
