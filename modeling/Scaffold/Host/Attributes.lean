import Scaffold.Project.Context

/-!
# Attributes of values

The attributes that the values of a context have, as far as they have a written form: the parts of numbers.
A method of a text has none, and counts as true.
-/

namespace Scaffold.Host

/-- The parts that every number has, and the ones only whole numbers have. -/
def numberPart? (number : Scalar) (name : String) : Option Value :=
  match number with
  | .float value =>
    if name == "real" then some (.float value)
    else if name == "imag" then some (.float (Decimal.Binary64.ofInt 0))
    else none
  | _ =>
    match number.asInt? with
    | none => none
    | some value =>
      if name == "real" || name == "numerator" then some (.int value)
      else if name == "imag" then some (.int 0)
      else if name == "denominator" then some (.int 1)
      else none

/-- The methods of texts. -/
def textMethods : List String :=
  ["capitalize", "casefold", "center", "count", "encode", "endswith", "expandtabs", "find", "format",
   "format_map", "index", "isalnum", "isalpha", "isascii", "isdecimal", "isdigit", "isidentifier", "islower",
   "isnumeric", "isprintable", "isspace", "istitle", "isupper", "join", "ljust", "lower", "lstrip", "maketrans",
   "partition", "removeprefix", "removesuffix", "replace", "rfind", "rindex", "rjust", "rpartition", "rsplit",
   "rstrip", "split", "splitlines", "startswith", "strip", "swapcase", "title", "translate", "upper", "zfill"]

/-- The methods of lists. -/
def listMethods : List String :=
  ["append", "clear", "copy", "count", "extend", "index", "insert", "pop", "remove", "reverse", "sort"]

/-- The attribute of a value under a name. -/
def attribute? (value : Value) (name : String) : Option Value :=
  match value with
  | .text _ => if textMethods.contains name then some (.bool true) else none
  | .scalar content => numberPart? content name
  | .list _ => if listMethods.contains name then some (.bool true) else none
  | .mapping _ => none

/-- What names lead to, one after the other. -/
def attributeAt? (value : Value) (names : List String) : Option Value :=
  names.foldlM attribute? value

/-- An empty name leads to nothing. -/
theorem attributeAt?_unnamed (value : Value) (rest : List String) : attributeAt? value ("" :: rest) = none := by
  have first : attribute? value "" = none := by
    cases value with
    | list items => rfl
    | mapping entries => rfl
    | scalar content => cases content <;> rfl
  rw [attributeAt?, List.foldlM_cons, first]
  rfl

/-- The attributes of values. -/
def attributes : Attributes := ⟨attributeAt?, attributeAt?_unnamed⟩

end Scaffold.Host
