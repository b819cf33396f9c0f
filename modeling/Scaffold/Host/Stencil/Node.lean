import Scaffold.Host.Stencil.Expr
import Scaffold.Host.Stencil.Token

/-!
# Nodes of template files

The structure of a template file: texts, outputs, branches, loops, assignments, inclusions, and named
blocks that a file may take over from the file it extends.
-/

namespace Scaffold.Host.Stencil

/-- A part of a template file. -/
inductive Node where
  | text (content : List Char)
  | output (expression : Expr)
  | branch (condition : Expr) (body otherwise : List Node)
  /-- A loop over a collection; items for which the condition fails are passed over. -/
  | loop (names : List String) (source : Expr) (condition : Option Expr) (body otherwise : List Node)
  | assign (names : List String) (value : Expr)
  /-- The rendered body becomes the value of a name. -/
  | capture (name : String) (body : List Node)
  | inclusion (file : Expr) (optional : Bool)
  | extension (file : Expr)
  | block (name : String) (body : List Node)
  deriving Repr, Inhabited

namespace Node

/-- The words that end a list of nodes. -/
def stopWords : List String := ["elif", "else", "endif", "endfor", "endblock", "endset"]

/-- A list of nodes, the tokens of the statement that ended it, and the segments behind. -/
structure Body where
  nodes : List Node
  stop : List Token
  rest : List Segment

/-- Names with commas between them, and the tokens behind. -/
def targets : List Token → Except Fault (List String × List Token)
  | .name word :: .sign "," :: rest => do
    let (others, after) ← targets rest
    return (word :: others, after)
  | .name word :: rest => .ok ([word], rest)
  | _ => .error .broken

/-- Whether an inclusion may be of a missing file. -/
def isOptional : List Token → Except Fault Bool
  | [] => .ok false
  | [.name "ignore", .name "missing"] => .ok true
  | [.name "ignore", .name "missing", .name "with", .name "context"] => .ok true
  | [.name "with", .name "context"] => .ok false
  | _ => .error .broken

/-- The head of a loop: its names, its source and its condition. -/
def loopHead (tokens : List Token) : Except Fault (List String × Expr × Option Expr) := do
  let (names, rest) ← targets tokens
  match rest with
  | .name "in" :: rest =>
    let (source, rest) ← Expr.parseEither (Expr.fuelFor rest) rest
    match rest with
    | [] => return (names, source, none)
    | .name "if" :: rest => return (names, source, some (← Expr.parse rest))
    | _ => throw .broken
  | _ => throw .broken

mutual

/-- The nodes up to a statement that ends them.  `fuel` bounds the number of segments. -/
def parseBody (fuel : Nat) (segments : List Segment) : Except Fault Body :=
  match fuel with
  | 0 => .error .broken
  | left + 1 =>
    match segments with
    | [] => .ok ⟨[], [], []⟩
    | .text content :: rest => addTo left (.text content) rest
    | .output tokens :: rest => do addTo left (.output (← Expr.parse tokens)) rest
    | .statement [] :: _ => .error .broken
    | .statement (.name word :: tokens) :: rest =>
      if stopWords.contains word then .ok ⟨[], .name word :: tokens, rest⟩
      else do
        let (node, behind) ← parseStatement left word tokens rest
        addTo left node behind
    | .statement _ :: _ => .error .broken
termination_by structural fuel

/-- A node before the nodes of the segments behind it. -/
def addTo (fuel : Nat) (node : Node) (segments : List Segment) : Except Fault Body :=
  match fuel with
  | 0 => .error .broken
  | left + 1 => do
    let body ← parseBody left segments
    return { body with nodes := node :: body.nodes }
termination_by structural fuel

/-- A statement that starts with a word, and the segments behind it. -/
def parseStatement (fuel : Nat) (word : String) (tokens : List Token) (segments : List Segment) :
    Except Fault (Node × List Segment) :=
  match fuel with
  | 0 => .error .broken
  | left + 1 => do
    match word with
    | "if" => parseBranch left tokens segments
    | "for" =>
      let (names, source, condition) ← loopHead tokens
      let body ← parseBody left segments
      match body.stop with
      | [.name "endfor"] => return (.loop names source condition body.nodes [], body.rest)
      | [.name "else"] =>
        let otherwise ← parseBody left body.rest
        if otherwise.stop == [.name "endfor"] then
          return (.loop names source condition body.nodes otherwise.nodes, otherwise.rest)
        else throw .broken
      | _ => throw .broken
    | "set" =>
      let (names, rest) ← targets tokens
      match names, rest with
      | [single], [] =>
        let body ← parseBody left segments
        if body.stop == [.name "endset"] then return (.capture single body.nodes, body.rest)
        else throw .broken
      | _, .sign "=" :: rest => return (.assign names (← Expr.parse rest), segments)
      | _, _ => throw .broken
    | "include" =>
      let (file, rest) ← Expr.parseFirst tokens
      return (.inclusion file (← isOptional rest), segments)
    | "extends" => return (.extension (← Expr.parse tokens), segments)
    | "block" =>
      match tokens with
      | .name blockName :: _ =>
        let body ← parseBody left segments
        match body.stop with
        | [.name "endblock"] => return (.block blockName body.nodes, body.rest)
        | [.name "endblock", .name again] =>
          if again == blockName then return (.block blockName body.nodes, body.rest)
          else throw .broken
        | _ => throw .broken
      | _ => throw .broken
    | _ => throw .broken
termination_by structural fuel

/-- A branch behind its first word, and the segments behind it. -/
def parseBranch (fuel : Nat) (tokens : List Token) (segments : List Segment) :
    Except Fault (Node × List Segment) :=
  match fuel with
  | 0 => .error .broken
  | left + 1 => do
    let condition ← Expr.parse tokens
    let body ← parseBody left segments
    match body.stop with
    | [.name "endif"] => return (.branch condition body.nodes [], body.rest)
    | [.name "else"] =>
      let otherwise ← parseBody left body.rest
      if otherwise.stop == [.name "endif"] then
        return (.branch condition body.nodes otherwise.nodes, otherwise.rest)
      else throw .broken
    | .name "elif" :: further =>
      let (other, rest) ← parseBranch left further body.rest
      return (.branch condition body.nodes [other], rest)
    | _ => throw .broken
termination_by structural fuel

end

/-- The nodes of a template file. -/
def parse (source : List Char) : Except Fault (List Node) := do
  let pieces ← segments source
  let body ← parseBody (4 * pieces.length + 4) pieces
  if body.stop.isEmpty then return body.nodes else throw .broken

mutual

/-- The named blocks of a node, outer ones first. -/
def blocks : Node → List (String × List Node)
  | .branch _ body otherwise => blocksOf body ++ blocksOf otherwise
  | .loop _ _ _ body otherwise => blocksOf body ++ blocksOf otherwise
  | .capture _ body => blocksOf body
  | .block blockName body => (blockName, body) :: blocksOf body
  | _ => []
termination_by structural node => node

/-- The named blocks of a list of nodes. -/
def blocksOf : List Node → List (String × List Node)
  | [] => []
  | node :: rest => blocks node ++ blocksOf rest
termination_by structural nodes => nodes

end

end Node

end Scaffold.Host.Stencil
