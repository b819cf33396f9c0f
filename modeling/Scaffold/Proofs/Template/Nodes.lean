import Scaffold.Template.Node
import Scaffold.Proofs.Text.Search
import Mathlib.Data.List.TakeWhile

/-!
# The text behind nodes

A token is read back from its own characters and from nothing less (`Token.IsRead.tokenize_raw`).  So the
nodes of a template still show what it was written as (`writes_nodesOf`), and the tags that became text are
the ones that are reported (`length_problemsFrom`).  Which texts are tags is said of their characters alone
(`IsMarker`), and decided.
-/

namespace Scaffold.Template

/-- What the tokens of a template are read from: text without a tag in it, a tag up to its first end, and
the start of a tag that has none. -/
inductive Token.IsRead : Token → Prop where
  | text {raw} (nonempty : raw ≠ []) (untagged : Text.cutAt? tagStart raw = none) : IsRead (.text raw)
  | tag {inside} (ends : Text.cutAt? tagEnd (inside ++ tagEnd) = some (inside, [])) :
      IsRead (tagToken inside)
  | unterminated {tag} (endless : Text.cutAt? tagEnd tag = none) :
      IsRead (.unterminated (tagStart ++ tag))

/-- A tag that opens a block with a condition. -/
def IsOpeningTag (condition raw : List Char) : Prop :=
  ∃ inside, raw = tagStart ++ inside ++ tagEnd ∧ conditionOf? (Text.trim inside) = some condition

/-- A tag that closes a block: between the braces stands the closing word. -/
def IsClosingTag (raw : List Char) : Prop :=
  ∃ inside, raw = tagStart ++ inside ++ tagEnd ∧ Text.trim inside = closingWord

/-- The texts that nodes are written as.  A leaf is written as it was read, and a block as its opening tag,
its body, in which no tag closes it, and some closing tag. -/
inductive Writes : List Node → List Char → Prop where
  | nil : Writes [] []
  | leaf {leaf nodes text} (others : Writes nodes text) : Writes (.leaf leaf :: nodes) (leaf.raw ++ text)
  | conditional {condition opening body closing nodes text} (opens : IsOpeningTag condition opening)
      (inner : ∀ leaf ∈ body, ¬IsClosingTag leaf.raw) (closes : IsClosingTag closing)
      (others : Writes nodes text) :
      Writes (.conditional condition opening body :: nodes)
        (opening ++ (body.map Leaf.raw).flatten ++ closing ++ text)

/-- A tag without end: behind its start no tag ends. -/
def IsEndlessTag (raw : List Char) : Prop := ∃ tag, raw = tagStart ++ tag ∧ Text.cutAt? tagEnd tag = none

/-- A tag that opens or closes a block, or one without end. -/
def IsMarker (raw : List Char) : Prop :=
  (∃ condition, IsOpeningTag condition raw) ∨ IsClosingTag raw ∨ IsEndlessTag raw

/-- What stands between the braces of a tag. -/
def coreOf (raw : List Char) : List Char :=
  (raw.drop tagStart.length).take (raw.length - tagStart.length - tagEnd.length)

/-- The core of a tag is what it was made of. -/
theorem coreOf_tag (inside : List Char) : coreOf (tagStart ++ inside ++ tagEnd) = inside := by
  have long : (tagStart ++ inside ++ tagEnd).length - tagStart.length - tagEnd.length = inside.length := by
    simp only [List.length_append]
    omega
  rw [coreOf, long, List.append_assoc, List.drop_left, List.take_left]

/-- A marker is known by what stands between its braces, or behind its start. -/
theorem isMarker_iff_core (raw : List Char) :
    IsMarker raw ↔
      (raw = tagStart ++ coreOf raw ++ tagEnd
          ∧ ((conditionOf? (Text.trim (coreOf raw))).isSome = true ∨ Text.trim (coreOf raw) = closingWord))
        ∨ (raw = tagStart ++ raw.drop tagStart.length
          ∧ Text.cutAt? tagEnd (raw.drop tagStart.length) = none) := by
  constructor
  · rintro (⟨condition, inside, rfl, found⟩ | ⟨inside, rfl, word⟩ | ⟨tag, rfl, endless⟩)
    · exact .inl ⟨by rw [coreOf_tag], .inl (by rw [coreOf_tag, found]; rfl)⟩
    · exact .inl ⟨by rw [coreOf_tag], .inr (by rw [coreOf_tag, word])⟩
    · exact .inr ⟨by rw [List.drop_left], by rw [List.drop_left, endless]⟩
  · rintro (⟨whole, opens | word⟩ | ⟨whole, endless⟩)
    · obtain ⟨condition, found⟩ := Option.isSome_iff_exists.mp opens
      exact .inl ⟨condition, _, whole, found⟩
    · exact .inr (.inl ⟨_, whole, word⟩)
    · exact .inr (.inr ⟨_, whole, endless⟩)

instance (raw : List Char) : Decidable (IsMarker raw) := decidable_of_iff _ (isMarker_iff_core raw).symm

/-- The text of a leaf, unless it is a variable. -/
def Leaf.texts : Leaf → List (List Char)
  | .text raw => [raw]
  | .variable _ _ => []

/-- The leaves of a node. -/
def Node.leaves : Node → List Leaf
  | .leaf single => [single]
  | .conditional _ _ body => body

/-- The tags of blocks and the tags without end that nodes hold as text. -/
def keptMarkers (nodes : List Node) : List (List Char) :=
  (nodes.flatMap fun node => node.leaves.flatMap Leaf.texts).filter (IsMarker ·)

/-- Whether a token is a tag that opens or closes a block, or one that does not end. -/
def Token.isMarker : Token → Bool
  | .opening _ _ => true
  | .closing _ => true
  | .unterminated _ => true
  | _ => false

variable {template tag inside after raw : List Char} {token : Token} {tokens inner rest : List Token}

theorem tagStart_ne_nil : tagStart ≠ [] := List.cons_ne_nil _ _

theorem tagEnd_ne_nil : tagEnd ≠ [] := List.cons_ne_nil _ _

/-! ## Tokens -/

/-- Text without a tag in it is one token. -/
theorem tokenize_untagged (untagged : Text.cutAt? tagStart template = none) :
    tokenize template = textTokens template := by
  rw [tokenize]
  split
  next => rfl
  next started =>
    rw [untagged] at started
    cases started

/-- No text is no token. -/
theorem tokenize_nil : tokenize [] = [] := tokenize_untagged rfl

/-- A tag is a token, whatever stands behind it. -/
theorem tokenize_tag (ends : Text.cutAt? tagEnd tag = some (inside, after)) :
    tokenize (tagStart ++ tag) = tagToken inside :: tokenize after := by
  rw [tokenize]
  split
  next started =>
    rw [Text.cutAt?_self tagStart_ne_nil] at started
    cases started
  next before tail started =>
    rw [Text.cutAt?_self tagStart_ne_nil] at started
    obtain ⟨rfl, rfl⟩ := Prod.mk.inj (Option.some.inj started)
    split
    next ended =>
      rw [ends] at ended
      cases ended
    next front back ended =>
      rw [ends] at ended
      obtain ⟨rfl, rfl⟩ := Prod.mk.inj (Option.some.inj ended)
      rfl

/-- A tag that does not end is a token with everything behind its start. -/
theorem tokenize_endless (endless : Text.cutAt? tagEnd tag = none) :
    tokenize (tagStart ++ tag) = [.unterminated (tagStart ++ tag)] := by
  rw [tokenize]
  split
  next started =>
    rw [Text.cutAt?_self tagStart_ne_nil] at started
    cases started
  next before tail started =>
    rw [Text.cutAt?_self tagStart_ne_nil] at started
    obtain ⟨rfl, rfl⟩ := Prod.mk.inj (Option.some.inj started)
    split
    next => rfl
    next ended =>
      rw [endless] at ended
      cases ended

/-- The token of plain text is read from it. -/
theorem isRead_of_mem_textTokens (untagged : Text.cutAt? tagStart raw = none)
    (member : token ∈ textTokens raw) : token.IsRead := by
  unfold textTokens at member
  split at member
  · cases member
  · next visible =>
    obtain rfl := List.mem_singleton.mp member
    exact .text (by simpa using visible) untagged

/-- The tokens of a template are read from their characters. -/
theorem isRead_of_mem_tokenize (template : List Char) :
    ∀ token ∈ tokenize template, token.IsRead := by
  fun_induction tokenize template with
  | case1 template untagged => exact fun token => isRead_of_mem_textTokens untagged
  | case2 template before tag started endless =>
      intro token member
      rcases List.mem_append.mp member with text | last
      · exact isRead_of_mem_textTokens (Text.cutAt?_before tagStart_ne_nil started) text
      · obtain rfl := List.mem_singleton.mp last
        exact .unterminated endless
  | case3 template before tag started inside after ended inductionHypothesis =>
      intro token member
      rcases List.mem_append.mp member with text | later
      · exact isRead_of_mem_textTokens (Text.cutAt?_before tagStart_ne_nil started) text
      · rcases List.mem_cons.mp later with rfl | behind
        · have alone := Text.cutAt?_append tagEnd_ne_nil ended []
          rw [List.append_nil] at alone
          exact .tag alone
        · exact inductionHypothesis token behind

/-- The characters of a token are read as that token. -/
theorem Token.IsRead.tokenize_raw (read : token.IsRead) : tokenize token.raw = [token] := by
  cases read with
  | text nonempty untagged =>
      rw [Token.raw, tokenize_untagged untagged, textTokens, if_neg (by simpa using nonempty)]
  | tag ends =>
      rw [raw_tagToken, List.append_assoc, tokenize_tag ends, tokenize_nil]
  | unterminated endless => exact tokenize_endless endless

/-- A token has characters. -/
theorem Token.IsRead.raw_ne_nil (read : token.IsRead) : token.raw ≠ [] := by
  intro empty
  have alone := read.tokenize_raw
  rw [empty, tokenize_nil] at alone
  cases alone

/-- A template has no more tokens than characters. -/
theorem length_tokenize_le (template : List Char) : (tokenize template).length ≤ template.length := by
  have visible := fun token member => (isRead_of_mem_tokenize template token member).raw_ne_nil
  have whole := congrArg List.length (flatten_raw_tokenize template)
  rw [← whole]
  generalize tokenize template = tokens at visible
  induction tokens with
  | nil => exact Nat.zero_le _
  | cons token rest inductionHypothesis =>
      have first := List.length_pos_iff.mpr (visible token List.mem_cons_self)
      have others := inductionHypothesis fun other member => visible other (List.mem_cons_of_mem _ member)
      simp only [List.map_cons, List.flatten_cons, List.length_append, List.length_cons]
      omega

/-- What a tag is, by what stands between its braces. -/
theorem tagToken_cases (inside : List Char) :
    (∃ condition, conditionOf? (Text.trim inside) = some condition
        ∧ tagToken inside = .opening condition (tagStart ++ inside ++ tagEnd))
      ∨ (Text.trim inside = closingWord ∧ tagToken inside = .closing (tagStart ++ inside ++ tagEnd))
      ∨ (isReference (Text.trim inside) = true
        ∧ tagToken inside = .variable (Text.trim inside) (tagStart ++ inside ++ tagEnd))
      ∨ tagToken inside = .text (tagStart ++ inside ++ tagEnd) := by
  rw [tagToken]
  cases conditionOf? (Text.trim inside) with
  | some condition => exact .inl ⟨condition, rfl, rfl⟩
  | none =>
      dsimp only
      by_cases word : Text.trim inside = closingWord
      · exact .inr (.inl ⟨word, if_pos (beq_iff_eq.mpr word)⟩)
      · rw [if_neg (by simpa using word)]
        by_cases valid : isReference (Text.trim inside) = true
        · exact .inr (.inr (.inl ⟨valid, if_pos valid⟩))
        · exact .inr (.inr (.inr (if_neg valid)))

/-- A token that closes a block is read from a closing tag. -/
theorem Token.IsRead.isClosingTag (read : token.IsRead) (closing : token.isClosing = true) :
    IsClosingTag token.raw := by
  cases read with
  | text => cases closing
  | unterminated => cases closing
  | @tag inside ends =>
      rcases tagToken_cases inside with ⟨_, _, same⟩ | ⟨word, _⟩ | ⟨_, same⟩ | same
      · cases same ▸ closing
      · exact ⟨inside, raw_tagToken inside, word⟩
      · cases same ▸ closing
      · cases same ▸ closing

/-- A token that is read from braces around some text is the tag of this text. -/
theorem Token.IsRead.eq_tagToken (read : token.IsRead) (whole : token.raw = tagStart ++ inside ++ tagEnd) :
    token = tagToken inside := by
  cases read with
  | text nonempty untagged =>
      rw [Token.raw] at whole
      exact absurd untagged (by
        rw [whole, List.append_assoc]
        exact Text.cutAt?_ne_none [] tagStart (inside ++ tagEnd))
  | unterminated endless =>
      rw [Token.raw, List.append_assoc, List.append_cancel_left_eq] at whole
      exact absurd endless (by
        rw [whole, ← List.append_nil (inside ++ tagEnd)]
        exact Text.cutAt?_ne_none inside tagEnd [])
  | tag ends =>
      rw [raw_tagToken, List.append_cancel_right_eq, List.append_cancel_left_eq] at whole
      rw [whole]

/-- The tag of the closing word closes a block. -/
theorem tagToken_of_closingWord (word : Text.trim inside = closingWord) :
    tagToken inside = .closing (tagStart ++ inside ++ tagEnd) := by
  have noCondition : conditionOf? closingWord = none := by decide
  simp [tagToken, word, noCondition]

/-- A token that is read from a closing tag closes a block. -/
theorem Token.IsRead.not_isClosingTag (read : token.IsRead) (other : token.isClosing = false) :
    ¬IsClosingTag token.raw := by
  rintro ⟨inside, whole, word⟩
  rw [read.eq_tagToken whole, tagToken_of_closingWord word] at other
  cases other

/-- An opening token is read from an opening tag. -/
theorem isOpeningTag_of_isRead {condition : List Char} (read : (Token.opening condition raw).IsRead) :
    IsOpeningTag condition raw := by
  generalize same : Token.opening condition raw = token at read
  cases read with
  | text => cases same
  | unterminated => cases same
  | @tag inside ends =>
      rcases tagToken_cases inside with ⟨condition, found, opens⟩ | ⟨_, other⟩ | ⟨_, other⟩ | other
      · obtain ⟨rfl, rfl⟩ := Token.opening.inj (same.trans opens)
        exact ⟨inside, rfl, found⟩
      all_goals cases same.trans other

/-- What is read up to a token that closes a block: the tokens before it do not, and it does. -/
theorem split_at_closing {close : Token} {behind : List Token}
    (found : (rest.dropWhile fun token => !token.isClosing) = close :: behind) :
    rest = (rest.takeWhile fun token => !token.isClosing) ++ close :: behind
      ∧ close.isClosing = true := by
  refine ⟨by rw [← found, List.takeWhile_append_dropWhile], ?_⟩
  have stops := List.head?_dropWhile_not (fun token : Token => !token.isClosing) rest
  rw [found] at stops
  simpa using stops

/-- Tokens that do not close a block end with one that does, or make up the whole rest. -/
theorem takeWhile_eq_self {rest : List Token}
    (found : (rest.dropWhile fun token => !token.isClosing) = []) :
    (rest.takeWhile fun token => !token.isClosing) = rest := by
  have whole := List.takeWhile_append_dropWhile (p := fun token : Token => !token.isClosing) (l := rest)
  rwa [found, List.append_nil] at whole

/-- Leaves are written as their tokens. -/
theorem flatten_raw_leaf (tokens : List Token) :
    ((tokens.map Token.leaf).map Leaf.raw).flatten = (tokens.map Token.raw).flatten := by
  rw [List.map_map]
  exact congrArg List.flatten (List.map_congr_left fun token _ => raw_leaf token)

/-- Leaves outside of blocks are written one after the other. -/
theorem writes_leaves (leaves : List Leaf) :
    Writes (leaves.map Node.leaf) (leaves.map Leaf.raw).flatten := by
  induction leaves with
  | nil => exact .nil
  | cons leaf rest inductionHypothesis => exact .leaf inductionHypothesis

/-- Nodes are written as the tokens that they are made of. -/
theorem writes_nodesOf (read : ∀ token ∈ tokens, token.IsRead) :
    Writes (nodesOf tokens) (tokens.map Token.raw).flatten := by
  fun_induction nodesOf tokens with
  | case1 => exact .nil
  | case2 condition raw rest body close behind closed inductionHypothesis =>
      obtain ⟨whole, closes⟩ := split_at_closing closed
      obtain ⟨opening, others⟩ := List.forall_mem_cons.mp read
      rw [whole] at others
      obtain ⟨inner, later⟩ := List.forall_mem_append.mp others
      obtain ⟨closing, further⟩ := List.forall_mem_cons.mp later
      have unclosed : ∀ leaf ∈ body, ¬IsClosingTag leaf.raw := by
        intro leaf member
        obtain ⟨token, inside, rfl⟩ := List.mem_map.mp member
        rw [raw_leaf]
        exact (inner token inside).not_isClosingTag (by simpa using List.mem_takeWhile_imp inside)
      have written : ((Token.opening condition raw :: rest).map Token.raw).flatten
          = raw ++ (body.map Leaf.raw).flatten ++ close.raw ++ (behind.map Token.raw).flatten := by
        rw [flatten_raw_leaf, List.map_cons, List.flatten_cons, Token.raw]
        conv_lhs => rw [whole]
        simp
      rw [written]
      exact .conditional (isOpeningTag_of_isRead opening) unclosed (closing.isClosingTag closes)
        (inductionHypothesis further)
  | case3 condition raw rest body closed =>
      have whole : body = rest.map Token.leaf := congrArg (List.map Token.leaf) (takeWhile_eq_self closed)
      have others := writes_leaves (rest.map Token.leaf)
      rw [flatten_raw_leaf] at others
      rw [whole]
      exact .leaf others
  | case4 token rest other inductionHypothesis =>
      rw [List.map_cons, List.flatten_cons, ← raw_leaf]
      exact .leaf (inductionHypothesis (List.forall_mem_cons.mp read).2)

/-! ## Problems -/

/-- A token is a marker if it is read from one. -/
theorem Token.IsRead.isMarker_iff (read : token.IsRead) : token.isMarker = true ↔ IsMarker token.raw := by
  constructor
  · intro marks
    cases token with
    | text => cases marks
    | «variable» => cases marks
    | opening condition raw => exact .inl ⟨condition, isOpeningTag_of_isRead read⟩
    | closing => exact .inr (.inl (read.isClosingTag rfl))
    | unterminated raw =>
        generalize same : Token.unterminated raw = token at read
        cases read with
        | text => cases same
        | @tag inside =>
            rcases tagToken_cases inside with ⟨_, _, other⟩ | ⟨_, other⟩ | ⟨_, other⟩ | other
            all_goals cases same.trans other
        | unterminated endless => exact .inr (.inr ⟨_, rfl, endless⟩)
  · rintro (⟨condition, inside, whole, found⟩ | ⟨inside, whole, word⟩ | ⟨tag, whole, endless⟩)
    · rw [read.eq_tagToken whole, tagToken, found]
      rfl
    · rw [read.eq_tagToken whole, tagToken_of_closingWord word]
      rfl
    · cases read with
      | text nonempty untagged =>
          rw [Token.raw] at whole
          rw [whole] at untagged
          exact absurd untagged (Text.cutAt?_ne_none [] tagStart tag)
      | unterminated => rfl
      | @tag inside ends =>
          rw [raw_tagToken, List.append_assoc, List.append_cancel_left_eq] at whole
          rw [whole, endless] at ends
          cases ends

/-- A leaf holds a marker as text if its token is one. -/
theorem Token.IsRead.texts_leaf (read : token.IsRead) :
    token.leaf.texts.filter (IsMarker ·) = ([token].filter Token.isMarker).map Token.raw := by
  have same : decide (IsMarker token.raw) = token.isMarker := by
    rw [Bool.eq_iff_iff, decide_eq_true_iff, read.isMarker_iff]
  cases token with
  | «variable» => rfl
  | text | opening | closing | unterminated =>
      rw [Token.raw] at same
      simp only [Token.leaf, Leaf.texts, Token.raw, List.filter_cons, List.filter_nil, same]
      rfl

/-- Leaves hold the markers among their tokens as text. -/
theorem filter_texts (read : ∀ token ∈ tokens, token.IsRead) :
    ((tokens.map Token.leaf).flatMap Leaf.texts).filter (IsMarker ·)
      = (tokens.filter Token.isMarker).map Token.raw := by
  induction tokens with
  | nil => rfl
  | cons token rest inductionHypothesis =>
      obtain ⟨first, others⟩ := List.forall_mem_cons.mp read
      rw [List.map_cons, List.flatMap_cons, List.filter_append, first.texts_leaf, inductionHypothesis others,
        ← List.map_append, ← List.filter_append]
      rfl

/-- Leaves outside of blocks hold the markers that they hold anywhere. -/
theorem keptMarkers_leaves (leaves : List Leaf) :
    keptMarkers (leaves.map Node.leaf) = (leaves.flatMap Leaf.texts).filter (IsMarker ·) := by
  rw [keptMarkers, List.flatMap_map]
  simp only [Node.leaves, List.flatMap_singleton]

/-- The markers of nodes are those of the first one and those of the others. -/
theorem keptMarkers_cons (node : Node) (nodes : List Node) :
    keptMarkers (node :: nodes)
      = (node.leaves.flatMap Leaf.texts).filter (IsMarker ·) ++ keptMarkers nodes := by
  rw [keptMarkers, List.flatMap_cons, List.filter_append, keptMarkers]

/-- While a block is open every marker that does not close it is a problem. -/
theorem length_problemsFrom_open (opening : List Char)
    (unclosed : ∀ token ∈ inner, token.isClosing = false) (rest : List Token) :
    (problemsFrom (some opening) (inner ++ rest)).length
      = (inner.filter Token.isMarker).length + (problemsFrom (some opening) rest).length := by
  induction inner with
  | nil => simp
  | cons token inner inductionHypothesis =>
      obtain ⟨first, others⟩ := List.forall_mem_cons.mp unclosed
      have later := inductionHypothesis others
      cases token with
      | closing => cases first
      | text => simpa [problemsFrom, Token.isMarker] using later
      | «variable» => simpa [problemsFrom, Token.isMarker] using later
      | opening | unterminated =>
          rw [List.filter_cons_of_pos rfl]
          simp only [List.cons_append, problemsFrom, List.length_cons, later]
          omega

/-- There are as many problems as markers that nodes hold as text. -/
theorem length_problemsFrom (read : ∀ token ∈ tokens, token.IsRead) :
    (problemsFrom none tokens).length = (keptMarkers (nodesOf tokens)).length := by
  fun_induction nodesOf tokens with
  | case1 => rfl
  | case2 condition raw rest body close behind closed inductionHypothesis =>
      obtain ⟨whole, closes⟩ := split_at_closing closed
      obtain ⟨_, others⟩ := List.forall_mem_cons.mp read
      rw [whole] at others
      obtain ⟨inner, later⟩ := List.forall_mem_append.mp others
      obtain ⟨_, further⟩ := List.forall_mem_cons.mp later
      have unclosed : ∀ token ∈ rest.takeWhile fun token => !token.isClosing, token.isClosing = false :=
        fun token inside => by simpa using List.mem_takeWhile_imp inside
      have closed : problemsFrom (some raw) (close :: behind) = problemsFrom none behind := by
        cases close with
        | closing => rfl
        | _ => cases closes
      have kept : ((Node.conditional condition raw body).leaves.flatMap Leaf.texts).filter (IsMarker ·) = _ :=
        filter_texts inner
      rw [problemsFrom, whole, length_problemsFrom_open raw unclosed, closed,
        inductionHypothesis further, keptMarkers_cons, kept, List.length_append, List.length_map]
  | case3 condition raw rest body closed =>
      obtain ⟨opening, others⟩ := List.forall_mem_cons.mp read
      have whole : body = rest.map Token.leaf := congrArg (List.map Token.leaf) (takeWhile_eq_self closed)
      have unclosed : ∀ token ∈ rest, token.isClosing = false := by
        simpa using List.dropWhile_eq_nil_iff.mp closed
      have reported := length_problemsFrom_open raw unclosed []
      rw [List.append_nil] at reported
      have kept : ((Node.leaf (.text raw)).leaves.flatMap Leaf.texts).filter (IsMarker ·) = [raw] :=
        opening.texts_leaf
      rw [problemsFrom, reported, keptMarkers_cons, kept, whole, keptMarkers_leaves,
        filter_texts others, List.length_append, List.length_map]
      exact Nat.add_comm ..
  | case4 token rest other inductionHypothesis =>
      obtain ⟨first, others⟩ := List.forall_mem_cons.mp read
      have kept : ((Node.leaf token.leaf).leaves.flatMap Leaf.texts).filter (IsMarker ·)
          = ([token].filter Token.isMarker).map Token.raw := by
        rw [Node.leaves, List.flatMap_singleton, first.texts_leaf]
      rw [keptMarkers_cons, kept, List.length_append, List.length_map, ← inductionHypothesis others]
      cases token with
      | opening condition raw => exact absurd rfl (other condition raw)
      | text | «variable» =>
          rw [List.filter_cons_of_neg Bool.false_ne_true]
          simp [problemsFrom]
      | closing | unterminated =>
          rw [List.filter_cons_of_pos rfl]
          simp only [problemsFrom, List.length_cons, List.filter_nil, List.length_nil]
          omega

/-- A template is cut into tokens, no more of them than characters, that make up the template.  Its nodes
are written as the template, and every problem of it is a tag that the nodes hold as text. -/
theorem writes_parse (template : List Char) :
    (tokenize template).length ≤ template.length
      ∧ ((tokenize template).map Token.raw).flatten = template
      ∧ Writes (parse template) template
      ∧ (problems template).length = (keptMarkers (parse template)).length := by
  have read := isRead_of_mem_tokenize template
  have written := writes_nodesOf read
  rw [flatten_raw_tokenize] at written
  exact ⟨length_tokenize_le template, flatten_raw_tokenize template, written, length_problemsFrom read⟩

end Scaffold.Template
