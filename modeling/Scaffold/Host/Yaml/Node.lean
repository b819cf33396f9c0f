import Scaffold.Host.Yaml.Scanner

/-!
# Nodes of documents

The structure that tokens describe: scalars, sequences and mappings, with their tags.  An alias stands for
the node that its anchor was put before.
-/

namespace Scaffold.Host.Yaml

/-- A node. -/
inductive Node where
  | scalar (tag : Option String) (plain : Bool) (text : String)
  | sequence (tag : Option String) (items : List Node)
  | mapping (tag : Option String) (pairs : List (Node × Node))
  deriving Repr, Inhabited

namespace Node

/-- The node that stands where nothing is written. -/
def empty : Node := .scalar none true ""

/-- The nodes that have anchors. -/
abbrev Anchors := List (String × Node)

/-- What the handles of tags stand for. -/
abbrev Handles := List (String × String)

/-- The handles that need no directive. -/
def defaultHandles : Handles := [("!", "!"), ("!!", "tag:yaml.org,2002:")]

/-- What was read, with the anchors known behind it and the tokens that follow. -/
structure Read (α : Type) where
  value : α
  anchors : Anchors
  rest : List Token

/-- The properties of a node. -/
structure Properties where
  anchor : Option String
  tag : Option WrittenTag

/-- The properties at the start of a list of tokens, in either order. -/
def properties : List Token → Properties × List Token
  | .anchor name :: .tag tag :: rest => (⟨some name, some tag⟩, rest)
  | .anchor name :: rest => (⟨some name, none⟩, rest)
  | .tag tag :: .anchor name :: rest => (⟨some name, some tag⟩, rest)
  | .tag tag :: rest => (⟨none, some tag⟩, rest)
  | rest => (⟨none, none⟩, rest)

/-- The full form of a tag. -/
def fullTag (handles : Handles) : Option WrittenTag → Except Fault (Option String)
  | none => .ok none
  | some ⟨none, suffix⟩ => .ok (some suffix)
  | some ⟨some handle, suffix⟩ =>
    match handles.lookup handle with
    | some start => .ok (some (start ++ suffix))
    | none => .error .malformed

/-- Whether no key, value or end of a mapping follows at once. -/
def hasContent : List Token → Bool
  | .key :: _ => false
  | .value :: _ => false
  | .blockEnd :: _ => false
  | _ => true

/-- Whether an item of a sequence follows before the next dash or the end. -/
def hasItem : List Token → Bool
  | .blockEntry :: _ => false
  | .blockEnd :: _ => false
  | _ => true

/-- Whether a node follows inside of brackets, before a comma or the end. -/
def hasFlowContent : List Token → Bool
  | .value :: _ => false
  | rest => !isFlowStop rest
where
  /-- Whether a comma or a closing bracket follows. -/
  isFlowStop : List Token → Bool
    | .flowEntry :: _ => true
    | .flowSequenceEnd :: _ => true
    | .flowMappingEnd :: _ => true
    | _ => false

/-- Whether a node follows a colon inside of brackets. -/
def hasFlowValue (tokens : List Token) : Bool := !hasFlowContent.isFlowStop tokens

/-- The tokens behind the comma that has to stand before every item but the first. -/
def behindComma (first : Bool) : List Token → Except Fault (List Token)
  | .flowEntry :: rest => if first then .ok (.flowEntry :: rest) else .ok rest
  | rest => if first then .ok rest else .error .malformed

mutual

/-- Reads a node.  Collections without brackets are read only in a `block`; a sequence whose dashes are
not indented only where `unindented` items may stand.  `fuel` bounds the number of tokens. -/
def read (handles : Handles) (fuel : Nat) (block unindented : Bool) (anchors : Anchors)
    (tokens : List Token) : Except Fault (Read Node) :=
  match fuel, tokens with
  | 0, _ => .error .malformed
  | _ + 1, .alias name :: rest =>
    match anchors.lookup name with
    | some node => .ok ⟨node, anchors, rest⟩
    | none => .error .malformed
  | left + 1, _ => do
    let (found, behind) := properties tokens
    let tag ← fullTag handles found.tag
    let node ← readContent handles left block unindented tag
      (found.anchor.isSome || found.tag.isSome) anchors behind
    match found.anchor with
    | none => return node
    | some name =>
      if (node.anchors.lookup name).isSome then throw .malformed
      else return { node with anchors := (name, node.value) :: node.anchors }
termination_by structural fuel

/-- Reads a node behind its properties; with properties it may be empty. -/
def readContent (handles : Handles) (fuel : Nat) (block unindented : Bool) (tag : Option String)
    (hasProperties : Bool) (anchors : Anchors) (tokens : List Token) : Except Fault (Read Node) :=
  match fuel with
  | 0 => .error .malformed
  | left + 1 => do
    match tokens with
    | .scalar text plain :: rest => return ⟨.scalar tag plain text, anchors, rest⟩
    | .flowSequenceStart :: rest =>
      let items ← readFlowItems handles left true anchors rest
      return ⟨.sequence tag items.value, items.anchors, items.rest⟩
    | .flowMappingStart :: rest =>
      let pairs ← readFlowPairs handles left true anchors rest
      return ⟨.mapping tag pairs.value, pairs.anchors, pairs.rest⟩
    | .blockSequenceStart :: rest =>
      if block then
        let items ← readItems handles left anchors rest
        return ⟨.sequence tag items.value, items.anchors, items.rest⟩
      else throw .malformed
    | .blockMappingStart :: rest =>
      if block then
        let pairs ← readPairs handles left anchors rest
        return ⟨.mapping tag pairs.value, pairs.anchors, pairs.rest⟩
      else throw .malformed
    | .blockEntry :: _ =>
      if unindented then
        let items ← readUnindented handles left anchors tokens
        return ⟨.sequence tag items.value, items.anchors, items.rest⟩
      else if hasProperties then return ⟨.scalar tag true "", anchors, tokens⟩
      else throw .malformed
    | _ =>
      if hasProperties then return ⟨.scalar tag true "", anchors, tokens⟩ else throw .malformed
termination_by structural fuel

/-- Reads a node if there is one, else the empty node. -/
def readOrEmpty (handles : Handles) (fuel : Nat) (present block unindented : Bool)
    (anchors : Anchors) (tokens : List Token) : Except Fault (Read Node) :=
  match fuel with
  | 0 => .error .malformed
  | left + 1 =>
    if present then read handles left block unindented anchors tokens
    else .ok ⟨empty, anchors, tokens⟩
termination_by structural fuel

/-- Reads the items of a sequence up to its end. -/
def readItems (handles : Handles) (fuel : Nat) (anchors : Anchors) (tokens : List Token) :
    Except Fault (Read (List Node)) :=
  match fuel, tokens with
  | left + 1, .blockEntry :: rest => do
    let item ← readOrEmpty handles left (hasItem rest) true false anchors rest
    let others ← readItems handles left item.anchors item.rest
    return { others with value := item.value :: others.value }
  | _ + 1, .blockEnd :: rest => .ok ⟨[], anchors, rest⟩
  | _, _ => .error .malformed
termination_by structural fuel

/-- Reads the items of a sequence that is not indented, as long as dashes follow. -/
def readUnindented (handles : Handles) (fuel : Nat) (anchors : Anchors) (tokens : List Token) :
    Except Fault (Read (List Node)) :=
  match fuel, tokens with
  | 0, _ => .error .malformed
  | left + 1, .blockEntry :: rest => do
    let item ← readOrEmpty handles left (hasItem rest && hasContent rest) true false anchors rest
    let others ← readUnindented handles left item.anchors item.rest
    return { others with value := item.value :: others.value }
  | _ + 1, rest => .ok ⟨[], anchors, rest⟩
termination_by structural fuel

/-- Reads the pairs of a mapping up to its end. -/
def readPairs (handles : Handles) (fuel : Nat) (anchors : Anchors) (tokens : List Token) :
    Except Fault (Read (List (Node × Node))) :=
  match fuel, tokens with
  | left + 1, .key :: rest => do
    let key ← readOrEmpty handles left (hasContent rest) true true anchors rest
    let value ← readValue handles left key.anchors key.rest
    let others ← readPairs handles left value.anchors value.rest
    return { others with value := (key.value, value.value) :: others.value }
  | _ + 1, .blockEnd :: rest => .ok ⟨[], anchors, rest⟩
  | _, _ => .error .malformed
termination_by structural fuel

/-- Reads the value of a pair, which may be missing. -/
def readValue (handles : Handles) (fuel : Nat) (anchors : Anchors) (tokens : List Token) :
    Except Fault (Read Node) :=
  match fuel, tokens with
  | left + 1, .value :: rest => readOrEmpty handles left (hasContent rest) true true anchors rest
  | _, _ => .ok ⟨empty, anchors, tokens⟩
termination_by structural fuel

/-- Reads the items of a sequence in brackets. -/
def readFlowItems (handles : Handles) (fuel : Nat) (first : Bool) (anchors : Anchors)
    (tokens : List Token) : Except Fault (Read (List Node)) :=
  match fuel, tokens with
  | 0, _ => .error .malformed
  | _ + 1, .flowSequenceEnd :: rest => .ok ⟨[], anchors, rest⟩
  | left + 1, _ => do
    match ← behindComma first tokens with
    | .flowSequenceEnd :: rest => return ⟨[], anchors, rest⟩
    | .key :: rest =>
      let key ← readOrEmpty handles left (hasFlowContent rest) false false anchors rest
      let value ← readFlowValue handles left key.anchors key.rest
      let others ← readFlowItems handles left false value.anchors value.rest
      return { others with value := .mapping none [(key.value, value.value)] :: others.value }
    | rest =>
      let item ← read handles left false false anchors rest
      let others ← readFlowItems handles left false item.anchors item.rest
      return { others with value := item.value :: others.value }
termination_by structural fuel

/-- Reads the pairs of a mapping in braces; a node without a colon is a key without a value. -/
def readFlowPairs (handles : Handles) (fuel : Nat) (first : Bool) (anchors : Anchors)
    (tokens : List Token) : Except Fault (Read (List (Node × Node))) :=
  match fuel, tokens with
  | 0, _ => .error .malformed
  | _ + 1, .flowMappingEnd :: rest => .ok ⟨[], anchors, rest⟩
  | left + 1, _ => do
    match ← behindComma first tokens with
    | .flowMappingEnd :: rest => return ⟨[], anchors, rest⟩
    | .key :: rest =>
      let key ← readOrEmpty handles left (hasFlowContent rest) false false anchors rest
      let value ← readFlowValue handles left key.anchors key.rest
      let others ← readFlowPairs handles left false value.anchors value.rest
      return { others with value := (key.value, value.value) :: others.value }
    | rest =>
      let key ← read handles left false false anchors rest
      let others ← readFlowPairs handles left false key.anchors key.rest
      return { others with value := (key.value, empty) :: others.value }
termination_by structural fuel

/-- Reads the value of a pair in brackets, which may be missing. -/
def readFlowValue (handles : Handles) (fuel : Nat) (anchors : Anchors) (tokens : List Token) :
    Except Fault (Read Node) :=
  match fuel, tokens with
  | left + 1, .value :: rest =>
    readOrEmpty handles left (hasFlowValue rest) false false anchors rest
  | _, _ => .ok ⟨empty, anchors, tokens⟩
termination_by structural fuel

end

/-- The handles that the directives of a document define, and the tokens behind them. -/
def readDirectives (versioned : Bool) (handles : Handles) :
    List Token → Except Fault (Handles × List Token)
  | .directive (.version major) :: rest =>
    if versioned || major != 1 then .error .malformed else readDirectives true handles rest
  | .directive (.tag handle start) :: rest =>
    if (handles.lookup handle).isSome then .error .malformed
    else readDirectives versioned (handles ++ [(handle, start)]) rest
  | .directive .unknown :: rest => readDirectives versioned handles rest
  | rest => .ok (handles ++ defaultHandles, rest)

/-- Whether a document that was started has no content. -/
def isBare : List Token → Bool
  | [] => true
  | .directive _ :: _ => true
  | .documentStart :: _ => true
  | .documentEnd :: _ => true
  | _ => false

/-- Whether the only document of a text ends before these tokens. -/
def isOver (tokens : List Token) : Bool :=
  (tokens.dropWhile fun token => token == .documentEnd).isEmpty

/-- A bound for the steps that reading takes. -/
def fuelFor (tokens : List Token) : Nat := 4 * tokens.length + 4

/-- Reads a node that has to be the only one. -/
def readOnly (handles : Handles) (tokens : List Token) : Except Fault Node := do
  let node ← read handles (fuelFor tokens) true false [] tokens
  if isOver node.rest then return node.value else throw .malformed

/-- The node of the only document of a text; none if the text holds no document. -/
def ofTokens (tokens : List Token) : Except Fault (Option Node) :=
  match tokens with
  | [] => .ok none
  | .directive _ :: _ => started
  | .documentStart :: _ => started
  | _ => (readOnly defaultHandles tokens).map some
where
  /-- The node of a document that starts with directives or a mark. -/
  started : Except Fault (Option Node) := do
    let (handles, rest) ← readDirectives false [] tokens
    match rest with
    | .documentStart :: content =>
      if isBare content then
        if isOver content then return some empty else throw .malformed
      else return some (← readOnly handles content)
    | _ => throw .malformed

/-- The node of the only document of a text. -/
def ofText (text : List Char) : Except Fault (Option Node) := do ofTokens (← tokens text)

end Node

end Scaffold.Host.Yaml
