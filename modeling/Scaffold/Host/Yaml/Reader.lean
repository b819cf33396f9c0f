import Scaffold.Document
import Scaffold.Host.Yaml.Core
import Scaffold.Host.Yaml.Node

/-!
# Reading documents

The value of a document.  A mapping may take over the pairs of other mappings; its own pairs win over
them, and of a repeated key the last value counts.
-/

namespace Scaffold.Host.Yaml

/-- The kinds of scalars by tag. -/
def kindTags : List (String × Kind) :=
  [("tag:yaml.org,2002:null", .null), ("tag:yaml.org,2002:bool", .bool),
   ("tag:yaml.org,2002:int", .int), ("tag:yaml.org,2002:float", .float),
   ("tag:yaml.org,2002:timestamp", .moment), ("tag:yaml.org,2002:str", .text),
   ("tag:yaml.org,2002:merge", .merge), ("tag:yaml.org,2002:value", .default)]

/-- The kind of a scalar: that of its tag; without one that of its characters, or a text if it is not
plain. -/
def scalarKind (tag : Option String) (plain : Bool) (text : String) : Except Fault Kind :=
  match tag with
  | none => .ok (if plain then kindOf text else .text)
  | some "!" => .ok (kindOf text)
  | some name =>
    match kindTags.lookup name with
    | some kind => .ok kind
    | none => .error .malformed

/-- Whether a collection may have a tag. -/
def fitsCollection (tag : Option String) (own : String) : Bool :=
  match tag with
  | none => true
  | some name => name == "!" || name == own

/-- Whether pairs of other mappings are taken over under a key. -/
def isMergeKey : Node → Bool
  | .scalar tag plain text => (scalarKind tag plain text).toOption == some .merge
  | _ => false

/-- The key that a node stands for. -/
def keyOf : Node → Except Fault Scalar
  | .scalar tag plain text => do
    let kind ← scalarKind tag plain text
    scalarOf (if kind == .default then .text else kind) text
  | _ => .error .malformed

mutual

/-- The value of a node. -/
def valueOf : Node → Except Fault Value
  | .scalar tag plain text => do
    return .scalar (← scalarOf (← scalarKind tag plain text) text)
  | .sequence tag items =>
    if fitsCollection tag "tag:yaml.org,2002:seq" then (itemsOf items).map Value.list
    else .error .malformed
  | .mapping tag pairs =>
    if fitsCollection tag "tag:yaml.org,2002:map" then do
      let (merged, own) ← pairsOf pairs
      return .mapping (Entries.ofPairs (merged ++ own))
    else .error .malformed
termination_by structural node => node

/-- The values of nodes. -/
def itemsOf : List Node → Except Fault (List Value)
  | [] => .ok []
  | item :: rest => do return (← valueOf item) :: (← itemsOf rest)
termination_by structural items => items

/-- The pairs that a mapping takes over, and its own. -/
def pairsOf : List (Node × Node) → Except Fault (List (Scalar × Value) × List (Scalar × Value))
  | [] => .ok ([], [])
  | (key, value) :: rest =>
    if isMergeKey key then do
      let first ← sourceOf value
      let (merged, own) ← pairsOf rest
      return (first ++ merged, own)
    else do
      let name ← keyOf key
      let meant ← valueOf value
      let (merged, own) ← pairsOf rest
      return (merged, (name, meant) :: own)
termination_by structural pairs => pairs

/-- The pairs of a mapping, or of several mappings, that another one takes over. -/
def sourceOf : Node → Except Fault (List (Scalar × Value))
  | .mapping _ pairs => do
    let (merged, own) ← pairsOf pairs
    return merged ++ own
  | .sequence _ items => sourcesOf items
  | .scalar _ _ _ => .error .malformed
termination_by structural node => node

/-- The pairs of several mappings; those of earlier ones come last and win. -/
def sourcesOf : List Node → Except Fault (List (Scalar × Value))
  | [] => .ok []
  | .mapping _ pairs :: rest => do
    let (merged, own) ← pairsOf pairs
    let others ← sourcesOf rest
    return others ++ merged ++ own
  | _ :: _ => .error .malformed
termination_by structural items => items

end

/-- Reads the only document of a text; a text without a document is nothing. -/
def read (text : List Char) : Except Fault Value := do
  match ← Node.ofText text with
  | none => return .null
  | some node => valueOf node

/-- The mark that stands for the reason why a text is no document. -/
def reasonMark : String := "<yaml>"

/-- The wording of a fault. -/
def Fault.message : Fault → String
  | .malformed => reasonMark
  | .noCharacter => "chr() arg not in range(0x110000)"
  | .hugeCharacter => "Python int too large to convert to C int"
  | .notInteger base text =>
    "invalid literal for int() with base " ++ Decimal.intText base ++ ": " ++ Text.quoted text
  | .tooManyDigits count => (Json.Fault.tooManyDigits count).message
  | .notNumber text => "could not convert string to float: " ++ Text.quoted text
  | .notTruth text => Text.quoted text
  | .moment fault => fault.message
  | .notMoment => "no moment"
  | .emptyNumber => "string index out of range"

/-- A fault as the reader of documents reports it. -/
def Fault.report (fault : Fault) : DocumentFault :=
  match fault with
  | .malformed => .malformed fault.message
  | .hugeCharacter => .raised "OverflowError" fault.message
  | .notTruth _ => .raised "KeyError" fault.message
  | .notMoment => .raised "AttributeError" fault.message
  | .emptyNumber => .raised "IndexError" fault.message
  | _ => .value fault.message

/-- Reads documents. -/
def documents : Documents := fun text => (read text.toList).mapError Fault.report

end Scaffold.Host.Yaml
