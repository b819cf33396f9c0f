import Scaffold.CommandLine.Switch

/-!
# Arguments

What a command line asks for.  The words are taken one by one: a switch with a value takes the next word,
and the module ids must stand together.
-/

namespace Scaffold.CommandLine

/-- What a command line asks for. -/
structure Arguments where
  modules : List String
  registry : String
  project : String
  name : String
  framework : String
  params : List String
  skipInstall : Bool
  continueOnFailure : Bool
  list : Bool
  verbose : Bool
  deriving DecidableEq, Repr

/-- What an empty command line asks for. -/
def Arguments.empty : Arguments := ⟨[], "", "", "", "", [], false, false, false, false⟩

/-- Sets a switch; a switch without a value ignores it. -/
def Arguments.set (arguments : Arguments) (switch : Switch) (value : String) : Arguments :=
  match switch with
  | .help => arguments
  | .registry => { arguments with registry := value }
  | .project => { arguments with project := value }
  | .name => { arguments with name := value }
  | .framework => { arguments with framework := value }
  | .param => { arguments with params := arguments.params ++ [value] }
  | .skipInstall => { arguments with skipInstall := true }
  | .continueOnFailure => { arguments with continueOnFailure := true }
  | .list => { arguments with list := true }
  | .verbose => { arguments with verbose := true }

/-- Where the module ids stand: to come, here, or before. -/
inductive ModulesPlace where
  | ahead
  | here
  | behind
  deriving DecidableEq, Repr

/-- The state between two words. -/
structure Reading where
  arguments : Arguments
  place : ModulesPlace
  /-- The switch whose value is next. -/
  pending : Option Switch
  /-- Words that belong to nothing. -/
  extras : List String
  deriving DecidableEq, Repr

/-- The state before the first word. -/
def Reading.start : Reading := ⟨.empty, .ahead, none, []⟩

/-- Why reading ends early. -/
inductive Stop where
  /-- Help is asked for. -/
  | help
  | fault (fault : UsageFault)
  deriving DecidableEq, Repr

/-- The switches of a word of joined short ones, and a rest that is none.  The characters behind the
first switch are given. -/
def joinedSwitches (switch : Switch) : List Char → Except UsageFault (List Switch × List String)
  | [] => .ok ([switch], [])
  | c :: rest =>
    if c == '-' then .error (.unwantedValue switch (String.ofList (c :: rest)))
    else
      match spellings.lookup (String.ofList ['-', c]) with
      | none => .ok ([switch], [String.ofList ('-' :: c :: rest)])
      | some next =>
        match rest with
        | '=' :: value => .error (.unwantedValue next (String.ofList value))
        | _ => (joinedSwitches next rest).map fun (others, extra) => (switch :: others, extra)

namespace Reading

/-- A module id. -/
def takeModule (reading : Reading) (id : String) : Reading :=
  match reading.place with
  | .behind => { reading with extras := reading.extras ++ [id] }
  | _ =>
    { reading with
      arguments := { reading.arguments with modules := reading.arguments.modules ++ [id] }
      place := .here }

/-- The separator: module ids follow, unless they stood before. -/
def takeSeparator (reading : Reading) : Reading :=
  match reading.place with
  | .behind => { reading with extras := reading.extras ++ ["--"] }
  | _ => { reading with place := .here }

/-- The module ids end before a switch. -/
def closeModules (reading : Reading) : Reading :=
  if reading.place == .here then { reading with place := .behind } else reading

/-- Switches without values, and words that belong to nothing. -/
def takeFlags (reading : Reading) (switches : List Switch) (extras : List String) :
    Except Stop Reading :=
  if switches.contains .help then .error .help
  else
    .ok { reading with
      arguments := switches.foldl (fun arguments switch => arguments.set switch "") reading.arguments
      extras := reading.extras ++ extras }

/-- A switch. -/
def takeSwitch (reading : Reading) (switch : Switch) (attachment : Attachment) :
    Except Stop Reading :=
  match switch.hasValue, attachment with
  | true, .nothing => .ok { reading with pending := some switch }
  | true, .value text =>
    .ok { reading with arguments := reading.arguments.set switch (String.ofList text) }
  | true, .joined text =>
    .ok { reading with arguments := reading.arguments.set switch (String.ofList text) }
  | false, .nothing => reading.takeFlags [switch] []
  | false, .value text => .error (.fault (.unwantedValue switch (String.ofList text)))
  | false, .joined text =>
    match joinedSwitches switch text with
    | .error fault => .error (.fault fault)
    | .ok (switches, extras) => reading.takeFlags switches extras

/-- Takes a word. -/
def take (reading : Reading) (word : Word) : Except Stop Reading :=
  match reading.pending, word with
  | some switch, .plain value =>
    .ok { reading with arguments := reading.arguments.set switch value, pending := none }
  | some switch, _ => .error (.fault (.noValue switch))
  | none, .plain id => .ok (reading.takeModule id)
  | none, .separator => .ok reading.takeSeparator
  | none, .switch switch attachment => reading.closeModules.takeSwitch switch attachment
  | none, .unknown text =>
    .ok { reading.closeModules with extras := reading.extras ++ [text] }

/-- The arguments behind the last word. -/
def finish (reading : Reading) : Except Stop Arguments :=
  match reading.pending, reading.extras with
  | some switch, _ => .error (.fault (.noValue switch))
  | none, [] => .ok reading.arguments
  | none, extras => .error (.fault (.unrecognized extras))

end Reading

/-- Reads a command line. -/
def parse (words : List String) : Except Stop Arguments := do
  let read ← (wordsOf words).mapError .fault
  (← read.foldlM Reading.take Reading.start).finish

end Scaffold.CommandLine
