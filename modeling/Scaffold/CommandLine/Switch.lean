import Scaffold.Text.Case
import Scaffold.Text.Quoted
import Scaffold.Text.Search
import Scaffold.Text.Utf8

/-!
# Switches of the command line

A word of the command line is a module id, the separator behind which every word is a module id, or a
switch.  A long switch may be shortened as long as it stays unique, and its value may follow an equals
sign; short switches may be joined.
-/

namespace Scaffold.CommandLine

/-- The switches. -/
inductive Switch where
  | help
  | registry
  | project
  | name
  | framework
  | param
  | skipInstall
  | continueOnFailure
  | list
  | verbose
  deriving DecidableEq, Repr

/-- The spellings of the switches, in order. -/
def spellings : List (String × Switch) :=
  [("-h", .help), ("--help", .help), ("--registry", .registry), ("--project", .project),
   ("--name", .name), ("--framework", .framework), ("--param", .param),
   ("--skip-install", .skipInstall), ("--continue-on-failure", .continueOnFailure), ("--list", .list),
   ("--verbose", .verbose), ("-v", .verbose)]

namespace Switch

/-- Whether a switch has a value. -/
def hasValue : Switch → Bool
  | .registry => true
  | .project => true
  | .name => true
  | .framework => true
  | .param => true
  | _ => false

/-- All spellings of a switch. -/
def label (switch : Switch) : String :=
  String.intercalate "/" ((spellings.filter fun entry => entry.2 == switch).map (·.1))

end Switch

/-- Why a command line cannot be used. -/
inductive UsageFault where
  | ambiguous (word : String) (candidates : List String)
  | noValue (switch : Switch)
  /-- A value for a switch that has none. -/
  | unwantedValue (switch : Switch) (value : String)
  | unrecognized (words : List String)
  | noModules
  /-- A parameter value that cannot be used. -/
  | override (reason : String)
  deriving DecidableEq, Repr

/-- The wording of a fault. -/
def UsageFault.message : UsageFault → String
  | .ambiguous word candidates =>
    "ambiguous option: " ++ word ++ " could match " ++ String.intercalate ", " candidates
  | .noValue switch => "argument " ++ switch.label ++ ": expected one argument"
  | .unwantedValue switch value =>
    "argument " ++ switch.label ++ ": ignored explicit argument " ++ Text.quoted value
  | .unrecognized words => "unrecognized arguments: " ++ String.intercalate " " words
  | .noModules => "at least one module id is required"
  | .override reason => reason

/-- What stands behind a switch in its own word. -/
inductive Attachment where
  | nothing
  /-- A value behind an equals sign. -/
  | value (text : List Char)
  /-- Characters that follow a short switch directly. -/
  | joined (text : List Char)
  deriving DecidableEq, Repr

/-- What a word of the command line is. -/
inductive Word where
  | plain (text : String)
  | separator
  | switch (switch : Switch) (attachment : Attachment)
  /-- A word that looks like a switch and is none. -/
  | unknown (text : String)
  deriving DecidableEq, Repr

/-- Whether a word is a number below zero. -/
def isNegativeNumber (word : List Char) : Bool :=
  let isDigit (c : Char) : Bool := (Text.decimalDigit? c).isSome
  match word with
  | '-' :: digits =>
    let number := if digits.getLast? == some '\n' then digits.dropLast else digits
    let whole := number.takeWhile isDigit
    match number.drop whole.length with
    | [] => !whole.isEmpty
    | '.' :: fraction => !fraction.isEmpty && fraction.all isDigit
    | _ => false
  | _ => false

/-- A word with two dashes: the part before an equals sign, and the value behind it. -/
def cutValue (word : List Char) : List Char × Attachment :=
  match Text.cutAt? ['='] word with
  | none => (word, .nothing)
  | some (before, value) => (before, .value value)

/-- The switches that a word may stand for, each with its spelling and what is attached to it. -/
def candidates (word : List Char) : List (String × Switch × Attachment) :=
  match word with
  | '-' :: '-' :: _ =>
    let (before, attachment) := cutValue word
    (spellings.filter fun entry => before.isPrefixOf entry.1.toList).map fun entry =>
      (entry.1, entry.2, attachment)
  | _ =>
    (spellings.filter fun entry => entry.1.toList == word.take 2).map fun entry =>
      (entry.1, entry.2, .joined (word.drop 2))

/-- The switch that a word spells in full, perhaps with a value. -/
def inFull? (word : List Char) : Option Word :=
  match spellings.lookup (String.ofList word), cutValue word with
  | some switch, _ => some (.switch switch .nothing)
  | none, (before, attachment) =>
    (spellings.lookup (String.ofList before)).map fun switch => .switch switch attachment

/-- Reads a word that starts with a dash and has more characters. -/
def dashed (word : List Char) : Except UsageFault Word :=
  match inFull? word with
  | some found => .ok found
  | none =>
    match candidates word with
    | [(_, switch, attachment)] => .ok (.switch switch attachment)
    | [] =>
      if isNegativeNumber word || word.contains ' ' then .ok (.plain (String.ofList word))
      else .ok (.unknown (String.ofList word))
    | several => .error (.ambiguous (String.ofList word) (several.map (·.1)))

/-- Reads words.  Behind the separator every word is plain. -/
def wordsOf : List String → Except UsageFault (List Word)
  | [] => .ok []
  | "--" :: rest => .ok (.separator :: rest.map .plain)
  | word :: rest => do
    let first ← match word.toList with
      | '-' :: second :: more => dashed ('-' :: second :: more)
      | _ => .ok (.plain word)
    return first :: (← wordsOf rest)

end Scaffold.CommandLine
