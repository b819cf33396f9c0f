import Scaffold.Command.Words
import Scaffold.Console
import Scaffold.Decimal.Text
import Scaffold.Text.Lines

/-!
# Results of commands

What is known about a command that was launched, and the lines that report it.
-/

namespace Scaffold

/-- The result of one external command. -/
structure CommandResult where
  words : List String
  success : Bool
  exitCode : Int
  stdout : String
  stderr : String
  /-- The seconds it took. -/
  duration : Decimal.Binary64
  folder : String

namespace CommandResult

/-- The command line. -/
def commandLine (result : CommandResult) : String := Command.join result.words

/-- The number of lines of error output that a report shows. -/
def shownLines : Nat := 5

/-- The number of characters that a report shows of a line. -/
def shownWidth : Nat := 200

/-- The last items of a list. -/
def lastOf {α : Type} (count : Nat) (items : List α) : List α := items.drop (items.length - count)

/-- The start of a text, as it is shown. -/
def clipped (text : String) : String := Markup.escape (String.ofList (text.toList.take shownWidth))

/-- The report of a command. -/
def summary (result : CommandResult) : String :=
  let status :=
    if result.success then "[green]OK[/green]"
    else "[red]FAILED (" ++ Decimal.intText result.exitCode ++ ")[/red]"
  let head := status ++ " " ++ Markup.escape result.commandLine ++ " ("
    ++ Decimal.tenthsText result.duration ++ "s)"
  let detail :=
    if result.success then []
    else (lastOf shownLines (Text.linesOf result.stderr)).map fun line => "  " ++ clipped line
  String.intercalate "\n" (head :: detail)

/-- A result as data. -/
def toValue (result : CommandResult) : Value :=
  .record [("command", .texts result.words), ("success", .bool result.success),
    ("exit_code", .int result.exitCode), ("stdout", .text result.stdout),
    ("stderr", .text result.stderr), ("cwd", .text result.folder), ("summary", .text result.summary)]

end CommandResult

end Scaffold
