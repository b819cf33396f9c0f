import Scaffold.Project.Context

/-!
# Template files

The text of a new file may come from a template file.  A template engine renders it, which is no part of this
program and runs whatever code the template holds.  So the renderings of a run are given, in their order
(`Renderings`): each answers with a text or a failure, and may do more than that, to the files and to the
values that it was handed.
-/

namespace Scaffold

/-- A template file, the folder where it is looked up, and the named values that it may use. -/
structure TemplateFile where
  folder : String
  file : String
  facts : List (String × Value)

namespace TemplateFile

/-- The template file that an action of the current module names. -/
def ofName (context : Context) (file : String) : TemplateFile where
  folder := ((context.current.bind Module.sourceDir).getD context.project.root).text
  file
  facts := context.facts

end TemplateFile

/-- Why a template file is not rendered. -/
inductive RenderingFailure where
  /-- The file does not exist, or one that it includes. -/
  | missing
  /-- The engine refuses the template. -/
  | refused (reason : String)
  /-- Anything else that goes wrong, in its own words. -/
  | raised (message : String)
  deriving DecidableEq, Repr

/-- The wording of a failure. -/
def RenderingFailure.message (template : TemplateFile) : RenderingFailure → String
  | .missing => "Template file not found: " ++ template.file ++ " (in " ++ template.folder ++ ")"
  | .refused reason => "Failed to render " ++ template.file ++ ": " ++ reason
  | .raised message => message

/-- What a rendering does. -/
structure Rendering where
  answer : Except RenderingFailure String
  /-- The files afterwards. -/
  tree : Tree
  /-- What becomes of a context whose values were handed over. -/
  context : Context → Context

/-- The renderings to come, by their position.  Each finds the files in some state. -/
abbrev Renderings := Nat → Tree → TemplateFile → Rendering

namespace Renderings

/-- The renderings behind the first ones. -/
def later (renderings : Renderings) (count : Nat) : Renderings := fun position =>
  renderings (position + count)

/-- Renderings of which none finds its file. -/
def none : Renderings := fun _ tree _ => ⟨.error .missing, tree, id⟩

/-- Templates do not change the values that they are handed. -/
def KeepContext (renderings : Renderings) : Prop :=
  ∀ position tree template context, (renderings position tree template).context context = context

/-- Templates do not change files. -/
def WriteNothing (renderings : Renderings) : Prop :=
  ∀ position tree template, (renderings position tree template).tree = tree

end Renderings

end Scaffold
