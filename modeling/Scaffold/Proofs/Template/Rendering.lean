import Scaffold.Template.Render
import Scaffold.Proofs.Template.Nodes

/-!
# The leaves that are rendered

A block is rendered as the leaves of its body, or as nothing.  So a template is rendered as a list of
leaves, one after the other (`render_eq`), and the first leaf that cannot be rendered decides how the whole
fails (`renderLeaves_eq_error_iff`).
-/

namespace Scaffold.Template

variable {context : Context} {destination : Destination} {leaves first second : List Leaf} {fault : RenderFault}

/-- The leaves of a node that are rendered: those of a block only if its condition holds. -/
def Node.shown (context : Context) : Node → List Leaf
  | .leaf single => [single]
  | .conditional condition _ body => if holds condition context then body else []

/-- The leaves that are rendered, in order. -/
def shownLeaves (context : Context) (nodes : List Node) : List Leaf := nodes.flatMap (Node.shown context)

@[simp] theorem shownLeaves_nil (context : Context) : shownLeaves context [] = [] := rfl

@[simp] theorem shownLeaves_cons (context : Context) (node : Node) (nodes : List Node) :
    shownLeaves context (node :: nodes) = node.shown context ++ shownLeaves context nodes :=
  List.flatMap_cons

@[simp] theorem shownLeaves_append (context : Context) (first second : List Node) :
    shownLeaves context (first ++ second) = shownLeaves context first ++ shownLeaves context second :=
  List.flatMap_append

/-- Leaves outside of blocks are all rendered. -/
@[simp] theorem shownLeaves_leaves (context : Context) (leaves : List Leaf) :
    shownLeaves context (leaves.map Node.leaf) = leaves := by
  induction leaves with
  | nil => rfl
  | cons leaf rest inductionHypothesis => simp [inductionHypothesis, Node.shown]

/-! ## Leaves in order -/

/-- A leaf on its own. -/
theorem renderLeaves_singleton (leaf : Leaf) :
    renderLeaves context destination [leaf] = renderLeaf context destination leaf := by
  simp only [renderLeaves]
  cases renderLeaf context destination leaf with
  | error fault => rfl
  | ok text => exact congrArg Except.ok (List.append_nil text)

/-- Leaves that are put together are rendered one part after the other. -/
theorem renderLeaves_append :
    renderLeaves context destination (first ++ second)
      = do return (← renderLeaves context destination first)
        ++ (← renderLeaves context destination second) := by
  induction first with
  | nil =>
      rw [List.nil_append]
      cases renderLeaves context destination second <;> rfl
  | cons leaf first inductionHypothesis =>
      simp only [List.cons_append, renderLeaves, inductionHypothesis]
      cases renderLeaf context destination leaf with
      | error fault => rfl
      | ok text =>
          cases renderLeaves context destination first with
          | error fault => rfl
          | ok others =>
              cases renderLeaves context destination second with
              | error fault => rfl
              | ok last => exact congrArg Except.ok (List.append_assoc text others last).symm

/-- A node is rendered as its leaves that are rendered. -/
theorem renderNode_eq (node : Node) :
    renderNode context destination node = renderLeaves context destination (node.shown context) := by
  cases node with
  | leaf single => exact (renderLeaves_singleton single).symm
  | conditional condition opening body =>
      rw [renderNode, Node.shown]
      split <;> rfl

/-- Nodes are rendered as their leaves that are rendered. -/
theorem renderNodes_eq (nodes : List Node) :
    renderNodes context destination nodes
      = renderLeaves context destination (shownLeaves context nodes) := by
  induction nodes with
  | nil => rfl
  | cons node nodes inductionHypothesis =>
      rw [renderNodes, renderNode_eq, inductionHypothesis, shownLeaves_cons, renderLeaves_append]

/-- A template is rendered as the leaves of its nodes that are rendered. -/
theorem render_eq (template : List Char) :
    render context destination template
      = renderLeaves context destination (shownLeaves context (parse template)) :=
  renderNodes_eq _

/-- Texts are written as they are. -/
theorem mapM_formatItem_text (items : List String) :
    (items.map Value.text).mapM formatItem = (.ok items : Except Json.WriteFault (List String)) := by
  induction items with
  | nil => rfl
  | cons item items inductionHypothesis =>
      rw [List.map_cons, List.mapM_cons, inductionHypothesis]
      rfl

/-! ## A module to render for -/

/-- A module that must be given a secret and a session, and may be told whether to ask for a second factor. -/
def authModule : Module :=
  ⟨"auth", "Auth.js", "", .auth, "1.2.0", [], [], [],
    [⟨"secret", "", .null, true⟩, ⟨"session", "", .null, true⟩, ⟨"mfa", "", .bool false, false⟩], [], none⟩

/-- A project in which the module runs with the given values. -/
def authContext (values : Entries) : Context :=
  ⟨⟨"demo", ⟨.relative, ["proj"]⟩, "nextjs", "", "", "0.1.0", "MIT"⟩, [(authModule.id, values)],
    some authModule, none, [], none, .none⟩

/-- Text that goes to no file. -/
def nowhere : Destination := ⟨"", none⟩

end Scaffold.Template
