import Scaffold.Registry.Basic

/-!
# Resolutions

The answer to a request for modules: an order in which they can be installed, or everything that stands
against it.  All defects are reported together: ids that are not registered, requested modules that
exclude each other, and modules that depend on themselves.
-/

namespace Scaffold

/-- Two things in a request that do not go together. -/
inductive Conflict where
  /-- Two requested modules, one of which excludes the other. -/
  | direct (first second : String)
  /-- A module that was reached again while its dependencies were being visited. -/
  | cycle (id : String)
  deriving DecidableEq, Repr

namespace Conflict

/-- The reason of a conflict. -/
def reason : Conflict → String
  | .direct _ _ => "Direct conflict between modules"
  | .cycle _ => "Circular dependency detected"

/-- The written name of the kind of a conflict. -/
def kindName : Conflict → String
  | .direct _ _ => "direct-conflict"
  | .cycle _ => "circular-dependency"

/-- The two sides of a conflict; a cycle has the same id on both. -/
def sides : Conflict → String × String
  | .direct first second => (first, second)
  | .cycle id => (id, id)

/-- A conflict as one line. -/
def text (conflict : Conflict) : String :=
  match conflict with
  | .direct first second => first ++ " <-> " ++ second ++ ": " ++ conflict.reason
  | .cycle id => id ++ ": " ++ conflict.reason

/-- A conflict as data. -/
def toValue (conflict : Conflict) : Value :=
  .texts [conflict.sides.1, conflict.sides.2, conflict.reason, conflict.kindName, conflict.text]

end Conflict

/-- The answer to a request. -/
structure Resolution where
  order : List String
  conflicts : List Conflict
  missing : List String
  requested : List String
  deriving DecidableEq, Repr

namespace Resolution

/-- The order can be used if nothing stands against it. -/
def isOk (resolution : Resolution) : Bool :=
  resolution.conflicts.isEmpty && resolution.missing.isEmpty

/-- Nothing stands against an order if there are neither conflicts nor missing ids. -/
theorem isOk_eq_true_iff {resolution : Resolution} :
    resolution.isOk = true ↔ resolution.conflicts = [] ∧ resolution.missing = [] := by
  simp [isOk]

/-- The order on one line. -/
def orderText (resolution : Resolution) : String := String.intercalate " -> " resolution.order

/-- The answer in words. -/
def summary (resolution : Resolution) : String :=
  if resolution.isOk then
    "Install order: " ++ (if resolution.orderText.isEmpty then "(empty)" else resolution.orderText)
  else
    String.intercalate "\n"
      (resolution.conflicts.map (fun conflict => "conflict: " ++ conflict.text)
        ++ resolution.missing.map fun id => "missing: " ++ id)

/-- The row of a table that shows a conflict. -/
def conflictRow (conflict : Conflict) : List String :=
  match conflict with
  | .direct first second =>
    ["conflict", Markup.escape (first ++ ", " ++ second), Markup.escape conflict.reason]
  | .cycle id => ["cycle", Markup.escape id, Markup.escape conflict.reason]

/-- What is shown of an answer. -/
def shown (resolution : Resolution) : List Shown :=
  if resolution.isOk then
    [.line ("[green]Install order:[/green] " ++ Markup.escape resolution.orderText)]
  else
    [.table "Resolution failed" ["Problem", "Modules", "Detail"]
      (resolution.conflicts.map conflictRow
        ++ resolution.missing.map fun id =>
          ["missing", Markup.escape id, "Not found in the registry"])]

/-- A resolution as data. -/
def toValue (resolution : Resolution) : Value :=
  .record [("ok", .bool resolution.isOk), ("order", .texts resolution.order),
    ("missing", .texts resolution.missing), ("requested", .texts resolution.requested),
    ("conflicts", .list (resolution.conflicts.map Conflict.toValue)),
    ("summary", .text resolution.summary)]

end Resolution

end Scaffold
