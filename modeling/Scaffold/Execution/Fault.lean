import Scaffold.Command.Runner
import Scaffold.Merge.Apply
import Scaffold.Modifier.Fault
import Scaffold.Template.Render
import Scaffold.Tree.Resolve
import Scaffold.Execution.Rendering

/-!
# Faults of actions

Why an action cannot be applied, and how each reason is worded in a report.
-/

namespace Scaffold

/-- Why an action cannot be applied. -/
inductive ActionFault where
  | emptyPath (written : String)
  | unresolvedPath (rendered : String)
  | outsideRoot (rendered : String)
  | notList (selector : String)
  | variableName (name : String)
  /-- The rendered content of a JSON merge is no JSON. -/
  | notJson (fault : Json.Fault)
  | notObject
  | missingSchema (label : String)
  | missingFile (label : String)
  | notWords (command : String) (fault : Command.SplitFault)
  | emptyCommand
  | template (fault : Template.RenderFault)
  /-- A plan is made of a template file that was not rendered. -/
  | unrendered (name : String)
  | rendering (source : TemplateFile) (failure : RenderingFailure)
  | merge (fault : MergeFault)
  | modifier (fault : ModifierFault)
  | launch (fault : RunFault)
  | unreadable (failure : Tree.ReadFailure)
  | file (error : FileError)
  | unresolvable (failure : Tree.ResolveFailure)

/-- The wording of a fault. -/
def ActionFault.message : ActionFault → String
  | .emptyPath written => "Path '" ++ written ++ "' renders to an empty string"
  | .unresolvedPath rendered => "Unresolved variable in path '" ++ rendered ++ "'"
  | .outsideRoot rendered => "Path '" ++ rendered ++ "' is outside the project root"
  | .notList selector => "for_each selector '" ++ selector ++ "' does not name a list"
  | .variableName name => "Invalid environment variable name '" ++ name ++ "'"
  | .notJson (.tooManyDigits count) => (Json.Fault.tooManyDigits count).message
  | .notJson fault => "MERGE_JSON content is not valid JSON (" ++ fault.message ++ ")"
  | .notObject => "MERGE_JSON content must be a JSON object"
  | .missingSchema label => "Schema file '" ++ label ++ "' does not exist"
  | .missingFile label => "File '" ++ label ++ "' does not exist"
  | .notWords command fault => "Cannot tokenize command '" ++ command ++ "': " ++ fault.message
  | .emptyCommand => "Command renders to an empty string"
  | .template fault => fault.message
  | .unrendered name => "Template file is not rendered: " ++ name
  | .rendering source failure => failure.message source
  | .merge fault => fault.message
  | .modifier fault => fault.message
  | .launch fault => fault.message
  | .unreadable failure => failure.message
  | .file error => error.message
  | .unresolvable failure => failure.message

end Scaffold
