import Scaffold.Template.Token
import Scaffold.Text.Quoted

/-!
# Template nodes

The structure of a template: leaves, and conditional blocks of leaves.  Blocks do not nest; an opening
tag inside a block, a closing tag outside of one and a block that is never closed are text.
-/

namespace Scaffold.Template

/-- A part without structure. -/
inductive Leaf where
  | text (raw : List Char)
  | variable (reference raw : List Char)
  deriving DecidableEq, Repr

/-- A part of a template. -/
inductive Node where
  | leaf (leaf : Leaf)
  | conditional (condition opening : List Char) (body : List Leaf)
  deriving DecidableEq, Repr

/-- The characters that a leaf was read from. -/
def Leaf.raw : Leaf → List Char
  | .text raw => raw
  | .variable _ raw => raw

/-- A token as a leaf: everything but a reference is text. -/
def Token.leaf : Token → Leaf
  | .variable reference raw => .variable reference raw
  | token => .text token.raw

@[simp] theorem raw_leaf (token : Token) : token.leaf.raw = token.raw := by cases token <;> rfl

/-- Whether a token closes a block. -/
def Token.isClosing : Token → Bool
  | .closing _ => true
  | _ => false

/-- The nodes of a list of tokens. -/
def nodesOf : List Token → List Node
  | [] => []
  | .opening condition raw :: rest =>
    let body := (rest.takeWhile fun token => !token.isClosing).map Token.leaf
    match _closed : rest.dropWhile fun token => !token.isClosing with
    | _ :: after => .conditional condition raw body :: nodesOf after
    | [] => .leaf (.text raw) :: body.map Node.leaf
  | token :: rest => .leaf token.leaf :: nodesOf rest
termination_by tokens => tokens.length
decreasing_by
  all_goals simp_wf
  have shorter := (List.dropWhile_suffix (l := rest) fun token => !token.isClosing).length_le
  rw [_closed] at shorter
  simp only [List.length_cons] at shorter
  omega

/-- The nodes of a template. -/
def parse (template : List Char) : List Node := nodesOf (tokenize template)

/-! ## Problems of templates

Structural problems, found without rendering, and the references that a template uses.
-/

/-- A tag that does not do what it looks like. -/
inductive Problem where
  | unterminated (raw : List Char)
  | nested (raw : List Char)
  | unmatched
  | unclosed (raw : List Char)
  deriving DecidableEq, Repr

/-- The number of characters that a message shows of an unterminated tag. -/
def shownLength : Nat := 40

/-- The wording of a problem. -/
def Problem.message : Problem → String
  | .unterminated raw => "Unterminated tag: " ++ String.ofList (Text.quote (raw.take shownLength))
  | .nested raw => "Nested conditional is not supported: " ++ String.ofList (Text.quote raw)
  | .unmatched => "Unmatched \x7b\x7b/if\x7d\x7d"
  | .unclosed raw => "Unclosed conditional: " ++ String.ofList (Text.quote raw)

/-- The problems of tokens that follow an open block, if one is open. -/
def problemsFrom (opened : Option (List Char)) : List Token → List Problem
  | [] => (opened.map Problem.unclosed).toList
  | token :: rest =>
    match token, opened with
    | .unterminated raw, _ => .unterminated raw :: problemsFrom opened rest
    | .opening _ raw, none => problemsFrom (some raw) rest
    | .opening _ raw, some _ => .nested raw :: problemsFrom opened rest
    | .closing _, none => .unmatched :: problemsFrom none rest
    | .closing _, some _ => problemsFrom none rest
    | _, _ => problemsFrom opened rest

/-- The problems of a template. -/
def problems (template : List Char) : List Problem := problemsFrom none (tokenize template)

/-- The reference of a token; a condition that is a plain reference counts. -/
def Token.reference? : Token → Option (List Char)
  | .variable reference _ => some reference
  | .opening condition _ =>
    if condition == ['t', 'r', 'u', 'e'] || condition == ['f', 'a', 'l', 's', 'e'] then none
    else if isReference condition then some condition
    else none
  | _ => none

/-- The references that a template uses, in the order of their first use. -/
def references (template : List Char) : List (List Char) :=
  ((tokenize template).filterMap Token.reference?).eraseDups

end Scaffold.Template
