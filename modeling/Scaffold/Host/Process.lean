import Scaffold.Decimal.Binary64
import Scaffold.Decimal.Text
import Scaffold.Text.Blank
import Scaffold.Text.Search
import Scaffold.Text.Utf8
import Scaffold.Tree.Resolve

/-!
# Scripts

The text of a shell script as commands.  Characters are marked with how quotes protect them; commands are
cut at the operators that stand outside of quotes; and when a command runs, variables are replaced and
the marks are cut into words and redirections.
-/

namespace Scaffold.Host

/-- How a character of a script is protected. -/
inductive Guard where
  /-- Outside of quotes: blanks, operators and variables count. -/
  | bare
  /-- Inside double quotes: variables count. -/
  | soft
  /-- Nothing counts. -/
  | hard
  /-- From the value of a variable: blanks count. -/
  | replaced
  deriving DecidableEq, Repr

/-- A character of a script, or quotes, which make a word even if they are empty. -/
inductive Mark where
  | char (value : Char) (guard : Guard)
  | quotes
  deriving DecidableEq, Repr

/-- Where the reader of a script stands. -/
inductive ScriptPlace where
  | outside
  | inSingle
  | inDouble
  | behindBackslash
  | behindInnerBackslash
  deriving DecidableEq, Repr

/-- The marks of a script; none if quotes are not closed. -/
def marksFrom (place : ScriptPlace) : List Char → Option (List Mark)
  | [] => if place == .outside || place == .behindBackslash then some [] else none
  | c :: rest =>
    match place with
    | .outside =>
      if c == '\'' then (marksFrom .inSingle rest).map (.quotes :: ·)
      else if c == '"' then (marksFrom .inDouble rest).map (.quotes :: ·)
      else if c == '\\' then marksFrom .behindBackslash rest
      else (marksFrom .outside rest).map (.char c .bare :: ·)
    | .inSingle =>
      if c == '\'' then marksFrom .outside rest
      else (marksFrom .inSingle rest).map (.char c .hard :: ·)
    | .inDouble =>
      if c == '"' then marksFrom .outside rest
      else if c == '\\' then marksFrom .behindInnerBackslash rest
      else (marksFrom .inDouble rest).map (.char c .soft :: ·)
    | .behindBackslash =>
      if c == '\n' then marksFrom .outside rest
      else (marksFrom .outside rest).map (.char c .hard :: ·)
    | .behindInnerBackslash =>
      let marks := marksFrom .inDouble rest
      if c == '\n' then marks
      else if c == '"' || c == '\\' || c == '$' || c == '\x60' then marks.map (.char c .hard :: ·)
      else marks.map fun behind => .char '\\' .hard :: .char c .hard :: behind

/-- When a command of a script runs. -/
inductive Trigger where
  | always
  /-- If the command before it succeeded. -/
  | afterSuccess
  /-- If the command before it failed. -/
  | afterFailure
  deriving DecidableEq, Repr

/-- A command of a script. -/
structure ScriptCommand where
  trigger : Trigger
  marks : List Mark
  deriving DecidableEq, Repr

/-- Cuts marks into commands; `current` holds the marks of the command that is being read. -/
def cutCommands (trigger : Trigger) (current : List Mark) : List Mark → List ScriptCommand
  | .char '&' .bare :: .char '&' .bare :: rest =>
    ⟨trigger, current⟩ :: cutCommands .afterSuccess [] rest
  | .char '|' .bare :: .char '|' .bare :: rest =>
    ⟨trigger, current⟩ :: cutCommands .afterFailure [] rest
  | .char ';' .bare :: rest => ⟨trigger, current⟩ :: cutCommands .always [] rest
  | .char '\n' .bare :: rest => ⟨trigger, current⟩ :: cutCommands .always [] rest
  | mark :: rest => cutCommands trigger (current ++ [mark]) rest
  | [] => [⟨trigger, current⟩]

/-- The commands of a script; none if quotes are not closed. -/
def commandsOf (script : List Char) : Option (List ScriptCommand) :=
  (marksFrom .outside script).map (cutCommands .always [])

/-- Characters of the names of variables. -/
def isVariableChar (c : Char) : Bool := c.isAlphanum || c == '_'

/-- The name behind a dollar sign, and the number of marks that it takes up. -/
def variableAt (marks : List Mark) : List Char × Nat :=
  let text := marks.filterMap fun mark =>
    match mark with
    | .char c _ => some c
    | .quotes => none
  match text with
  | '?' :: _ => (['?'], 1)
  | '\x7b' :: inner =>
    let name := inner.takeWhile (· != '\x7d')
    (name, name.length + 2)
  | _ =>
    let name := text.takeWhile isVariableChar
    (name, name.length)

/-- Replaces the variables of marks by their values. -/
def replaceVariables (value : String → String) (marks : List Mark) : List Mark :=
  match marks with
  | [] => []
  | .char '$' guard :: rest =>
    let (name, size) := variableAt rest
    if name.isEmpty || guard == .hard || guard == .replaced then
      .char '$' .hard :: replaceVariables value rest
    else
      let shown := if guard == .soft then Guard.hard else .replaced
      (value (String.ofList name)).toList.map (Mark.char · shown)
        ++ replaceVariables value (rest.drop size)
  | mark :: rest => mark :: replaceVariables value rest
termination_by marks.length

/-- A part of a command. -/
inductive CommandPart where
  | word (text : List Char)
  /-- Output is sent to a file, whose name follows. -/
  | into (channel : Nat)
  /-- Output is sent to where another channel goes, whose number follows. -/
  | same (channel : Nat)
  deriving DecidableEq, Repr

/-- The word that is being read, if any, as a part. -/
def wordPart : Option (List Char) → List CommandPart
  | none => []
  | some text => [.word text]

/-- The channel that stands before a redirection, and the word before it. -/
def channelOf : Option (List Char) → Nat × List CommandPart
  | some ['1'] => (1, [])
  | some ['2'] => (2, [])
  | word => (1, wordPart word)

/-- The parts of a command; `word` is what has been read of the current word. -/
def partsFrom (word : Option (List Char)) : List Mark → List CommandPart
  | [] => wordPart word
  | .quotes :: rest => partsFrom (some (word.getD [])) rest
  | .char '>' .bare :: .char '&' .bare :: rest =>
    (channelOf word).2 ++ .same (channelOf word).1 :: partsFrom none rest
  | .char '>' .bare :: .char '>' .bare :: rest =>
    (channelOf word).2 ++ .into (channelOf word).1 :: partsFrom none rest
  | .char '>' .bare :: rest =>
    (channelOf word).2 ++ .into (channelOf word).1 :: partsFrom none rest
  | .char c guard :: rest =>
    let isBlank := c == ' ' || c == '\t' || c == '\n'
    if isBlank && (guard == .bare || guard == .replaced) then wordPart word ++ partsFrom none rest
    else partsFrom (some (word.getD [] ++ [c])) rest

/-! ## Processes

What a process prints and how it ends, for the few programs that scripts use to print, read and wait.
The output of a process is read as text, whatever its bytes are, and blanks around it are dropped; a
process that takes too long is stopped, and its output is lost.
-/

/-- How a process ended. -/
structure ProcessResult where
  code : Int
  stdout : String
  stderr : String
  deriving DecidableEq, Repr

/-- The channels of a process: what was written so far, and where each of them goes. -/
structure ShellState where
  folder : Path
  environment : List (String × String)
  status : Nat
  out : List UInt8
  err : List UInt8
  /-- The microseconds spent waiting. -/
  waited : Nat
  ended : Bool

/-- What a program does. -/
structure ProgramRun where
  out : List UInt8
  err : List UInt8
  status : Nat
  waited : Nat
  ends : Bool

/-- The bytes of a text. -/
def bytesOf (text : String) : List UInt8 := text.toUTF8.toList

/-- A program that prints and succeeds. -/
def printing (out : List UInt8) : ProgramRun := ⟨out, [], 0, 0, false⟩

/-- A program that complains and fails. -/
def complaining (message : String) (status : Nat) : ProgramRun :=
  ⟨[], bytesOf (message ++ "\n"), status, 0, false⟩

/-- An octal digit. -/
def octalDigit? (c : Char) : Option Nat := if '0' ≤ c && c ≤ '7' then some (c.toNat - 48) else none

/-- The byte of up to three octal digits, and the number of them. -/
def octalByte (text : List Char) : UInt8 × Nat :=
  let digits := (text.take 3).takeWhile fun c => (octalDigit? c).isSome
  (UInt8.ofNat (digits.foldl (fun value c => value * 8 + (octalDigit? c).getD 0) 0), digits.length)

/-- The characters of short escapes. -/
def shortEscapes : List (Char × UInt8) :=
  [('a', 7), ('b', 8), ('f', 12), ('n', 10), ('r', 13), ('t', 9), ('v', 11), ('\\', 92)]

/-- The bytes of an escape whose backslash was read, and the number of characters that follow the first
one.  An octal number may follow the backslash directly or, with `echoing`, behind a zero. -/
def escapeAt (echoing : Bool) (c : Char) (rest : List Char) : List UInt8 × Nat :=
  match shortEscapes.lookup c with
  | some byte => ([byte], 0)
  | none =>
    if echoing && c == '0' then ([(octalByte rest).1], (octalByte rest).2)
    else if !echoing && (octalDigit? c).isSome then
      ([(octalByte (c :: rest)).1], (octalByte (c :: rest)).2 - 1)
    else (bytesOf (String.ofList ['\\', c]), 0)

/-- The bytes of a text with escapes. -/
def unescape (echoing : Bool) (text : List Char) : List UInt8 :=
  match text with
  | [] => []
  | '\\' :: c :: rest =>
    (escapeAt echoing c rest).1 ++ unescape echoing (rest.drop (escapeAt echoing c rest).2)
  | c :: rest => bytesOf (String.ofList [c]) ++ unescape echoing rest
termination_by text.length
decreasing_by
  all_goals simp only [List.length_drop, List.length_cons]
  all_goals omega

/-- Prints words on a line. -/
def echo (words : List String) : ProgramRun :=
  let line (words : List String) : List UInt8 := unescape true (String.intercalate " " words).toList
  match words with
  | "-n" :: rest => printing (line rest)
  | _ => printing (line words ++ [10])

/-- The bytes of one use of a format, and the words that are left. -/
def formatOnce (words : List String) (format : List Char) : List UInt8 × List String :=
  match format with
  | [] => ([], words)
  | '%' :: '%' :: rest =>
    let (bytes, left) := formatOnce words rest
    (37 :: bytes, left)
  | '%' :: kind :: rest =>
    let given := words.head?.getD (if kind == 's' || kind == 'b' then "" else "0")
    let shown := if kind == 'b' then unescape true given.toList else bytesOf given
    let (bytes, left) := formatOnce words.tail rest
    (shown ++ bytes, left)
  | '\\' :: c :: rest =>
    let (bytes, left) := formatOnce words (rest.drop (escapeAt false c rest).2)
    ((escapeAt false c rest).1 ++ bytes, left)
  | c :: rest =>
    let (bytes, left) := formatOnce words rest
    (bytesOf (String.ofList [c]) ++ bytes, left)
termination_by format.length

/-- Uses a format as long as words are left; `uses` bounds how often. -/
def formatAll (format : List Char) : Nat → List String → List UInt8
  | 0, _ => []
  | uses + 1, words =>
    let (bytes, left) := formatOnce words format
    if left.isEmpty || left.length == words.length then bytes else bytes ++ formatAll format uses left

/-- Prints words in a format. -/
def printFormatted : List String → ProgramRun
  | [] => complaining "printf: usage: printf format [arg ...]" 2
  | format :: words => printing (formatAll format.toList (words.length + 1) words)

/-- Prints files. -/
def printFiles (tree : Tree) (folder : Path) : List String → ProgramRun
  | [] => printing []
  | name :: rest =>
    let others := printFiles tree folder rest
    match tree.read (folder.child name) with
    | .ok content => { others with out := content.toList ++ others.out }
    | .error error =>
      let reason := (error.cause.label.map (·.2)).getD ""
      { others with err := bytesOf ("cat: " ++ name ++ ": " ++ reason ++ "\n") ++ others.err, status := 1 }

/-- A number of seconds in microseconds. -/
def microseconds? (text : List Char) : Option Nat :=
  let whole := text.takeWhile (· != '.')
  let fraction := ((text.drop (whole.length + 1)).take 6).takeWhile Char.isDigit
  (Decimal.readNatural? Text.asciiDigit? whole).map fun seconds =>
    seconds * 1000000
      + Decimal.digitsValue (fraction ++ List.replicate (6 - fraction.length) '0')

/-- Waits. -/
def wait : List String → ProgramRun
  | [] => complaining "sleep: missing operand" 1
  | words =>
    let spans := words.map fun word => (microseconds? word.toList).getD 0
    ⟨[], [], 0, spans.foldl Nat.add 0, false⟩

/-- Ends a script. -/
def leave (status : Nat) (words : List String) : ProgramRun :=
  let code := match words with
    | [] => status
    | word :: _ => ((Decimal.readNatural? Text.asciiDigit? word.toList).getD 2) % 256
  ⟨[], [], code, 0, true⟩

/-- Runs a program in a state of the shell; none for a program that does not exist. -/
def program? (tree : Tree) (state : ShellState) (name : String) (words : List String) :
    Option ProgramRun :=
  match name with
  | "echo" => some (echo words)
  | "printf" => some (printFormatted words)
  | "cat" => some (printFiles tree state.folder words)
  | "pwd" => some (printing (bytesOf (state.folder.text ++ "\n")))
  | "sleep" => some (wait words)
  | "exit" => some (leave state.status words)
  | "true" => some (printing [])
  | ":" => some (printing [])
  | "false" => some ⟨[], [], 1, 0, false⟩
  | _ => none

/-- Where a channel goes. -/
inductive Outlet where
  | stdout
  | stderr
  | nowhere
  deriving DecidableEq, Repr

/-- The words of a command, and where its output and its error output go. -/
def redirect (out err : Outlet) : List CommandPart → List String × Outlet × Outlet
  | [] => ([], out, err)
  | .word text :: rest =>
    let (words, outlets) := redirect out err rest
    (String.ofList text :: words, outlets)
  | .same channel :: .word target :: rest =>
    let outlet := if target == ['2'] then err else out
    if channel == 2 then redirect out outlet rest else redirect outlet err rest
  | .into channel :: .word _ :: rest =>
    if channel == 2 then redirect out .nowhere rest else redirect .nowhere err rest
  | .same _ :: rest => redirect out err rest
  | .into _ :: rest => redirect out err rest

/-- The value of a variable in a state of the shell. -/
def variableOf (state : ShellState) (name : String) : String :=
  if name == "?" then Decimal.intText state.status else (state.environment.lookup name).getD ""

/-- The bytes of a run that go to an outlet. -/
def sentTo (outlet : Outlet) (run : ProgramRun) (out err : Outlet) : List UInt8 :=
  (if out == outlet then run.out else []) ++ (if err == outlet then run.err else [])

/-- Runs the words of a command. -/
def runWords (tree : Tree) (state : ShellState) (words : List String) (out err : Outlet) :
    ShellState :=
  match words with
  | [] => { state with status := 0 }
  | name :: arguments =>
    let run := (program? tree state name arguments).getD
      (complaining ("sh: 1: " ++ name ++ ": not found") 127)
    { state with
      status := run.status
      out := state.out ++ sentTo .stdout run out err
      err := state.err ++ sentTo .stderr run out err
      waited := state.waited + run.waited
      ended := run.ends }

/-- Whether a command runs, given how the one before it ended. -/
def isTriggered (trigger : Trigger) (status : Nat) : Bool :=
  match trigger with
  | .always => true
  | .afterSuccess => status == 0
  | .afterFailure => status != 0

/-- Runs a command of a script. -/
def runCommand (tree : Tree) (state : ShellState) (command : ScriptCommand) : ShellState :=
  if state.ended || !isTriggered command.trigger state.status then state
  else
    match partsFrom none (replaceVariables (variableOf state) command.marks) with
    | [] => state
    | parts =>
      let (words, out, err) := redirect .stdout .stderr parts
      runWords tree state words out err

/-- Runs a script. -/
def runScript (tree : Tree) (state : ShellState) (script : String) : ShellState :=
  match commandsOf script.toList with
  | none =>
    { state with
      status := 2
      err := bytesOf "sh: 1: Syntax error: Unterminated quoted string\n" }
  | some commands => commands.foldl (runCommand tree) state

/-- The program of a process and its arguments; none for a program that does not exist. -/
def runProcess (tree : Tree) (state : ShellState) : List String → Option ShellState
  | ["sh", "-c", script] => some (runScript tree state script)
  | [] => none
  | name :: words =>
    if name == "exit" || name == ":" || (program? tree state name words).isNone then none
    else some (runWords tree state (name :: words) .stdout .stderr)

/-- A number of seconds, written as `text`, that a process may take. -/
structure TimeLimit where
  text : String
  isPositive : Bool

/-- The result of a process that is stopped. -/
def stopped (limit : TimeLimit) (words : List String) : ProcessResult :=
  ⟨-1, "", "Command timed out after " ++ limit.text ++ "s: " ++ String.intercalate " " words⟩

/-- The text that a process has written. -/
def captured (bytes : List UInt8) : String := String.ofList (Text.trim (Text.decodeLossy bytes))

/-- The folder that a process starts in. -/
def startFolder (tree : Tree) : Option String → Except FileError Path
  | none => .ok (Tree.pathOf tree.home)
  | some folder =>
    let path := Path.ofText folder
    match tree.look path, tree.locate true path with
    | .ok .folder, .ok location => .ok (Tree.pathOf location)
    | .ok _, _ => .error ⟨.notFolder, folder⟩
    | .error cause, _ => .error ⟨cause, folder⟩

/-- Runs a process with variables of its own in a folder, for a limited time. -/
def capture (tree : Tree) (words : List String) (folder : Option String)
    (environment : List (String × String)) (limit : TimeLimit) : Except FileError ProcessResult := do
  let start ← startFolder tree folder
  match runProcess tree ⟨start, environment, 0, [], [], 0, false⟩ words with
  | none => throw ⟨.notFound, words.head?.getD ""⟩
  | some state =>
    let allowed := (microseconds? limit.text.toList).getD 0
    if !limit.isPositive || allowed < state.waited then return stopped limit words
    else return ⟨state.status, captured state.out, captured state.err⟩

end Scaffold.Host
