import Scaffold.Json.Printer
import Scaffold.Json.Reader
import Scaffold.Text.Blank

/-!
# Structured files

Files that hold one JSON object.  Blank text stands for the empty object.  A deep merge lays one object
over another, leaf by leaf: where both sides have an object the two are merged, everywhere else the
upper side wins.
-/

namespace Scaffold

mutual

/-- The value at a key after a merge: an object is merged into an object that was there, any other
value replaces it. -/
def mergeOver (old : Option Value) : Value → Value
  | .mapping upper =>
    let lower := match old with
      | some (.mapping entries) => entries
      | _ => []
    .mapping (deepMerge lower upper)
  | value => value
termination_by structural value => value

/-- Lays an object over another, recursively.  Keys keep the order of the lower object; new ones
follow in the order of the upper object. -/
def deepMerge (lower : Entries) : List (Scalar × Value) → Entries
  | [] => lower
  | (key, value) :: rest =>
    deepMerge (Entries.insert lower key (mergeOver (Entries.get? lower key) value)) rest
termination_by structural upper => upper

end

/-- Why a text is no structured file. -/
inductive StructuredFault where
  /-- The text is no JSON; the fault and its line. -/
  | notJson (fault : Json.Fault) (line : Nat)
  /-- A number is too long to be read at all. -/
  | longNumber (fault : Json.Fault)
  | notObject
  deriving DecidableEq, Repr

/-- The wording of a fault. -/
def StructuredFault.message : StructuredFault → String
  | .notJson fault line =>
    "not valid JSON (" ++ fault.message ++ " at line " ++ Decimal.intText line ++ ")"
  | .longNumber fault => fault.message
  | .notObject => "top-level JSON value must be an object"

/-- Reads a structured file. -/
def parseStructured (text : String) : Except StructuredFault Entries :=
  let characters := text.toList
  if Text.isAllBlank characters then .ok []
  else
    match Json.parse characters with
    | .ok (.mapping entries) => .ok entries
    | .ok _ => .error .notObject
    | .error ⟨.tooManyDigits count, _⟩ => .error (.longNumber (.tooManyDigits count))
    | .error ⟨fault, position⟩ => .error (.notJson fault (Json.lineOf characters position))

/-- Writes a structured file: two spaces a level, one line end at the end. -/
def dumpStructured (entries : Entries) : Except Json.WriteFault String :=
  return (← Json.writeStrict .tree (.mapping entries)) ++ "\n"

end Scaffold
