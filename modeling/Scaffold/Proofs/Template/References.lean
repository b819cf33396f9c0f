import Scaffold.Proofs.Template.Rendering
import Scaffold.Proofs.Text.Trimming

/-!
# What rendering looks up

Nodes are made of the tokens of a template, and a token lists the reference that its node looks up: a
variable its own (`renderLeaf_congr`), an opening tag its condition, which stands there without a tag around
it (`unwrapCondition_of_isRead`).  So contexts that agree on the references of a template cannot be told
apart by it.
-/

namespace Scaffold.Template

variable {left right : Context} {destination : Destination} {template condition raw : List Char}
  {leaf : Leaf} {node : Node} {tokens more : List Token}

/-! ## Nodes and tokens -/

/-- A leaf is one of the tokens. -/
def Leaf.IsMadeOf (tokens : List Token) (leaf : Leaf) : Prop := ∃ token ∈ tokens, token.leaf = leaf

/-- A node comes from the tokens: a leaf from one of them, a block from its opening tag and leaves. -/
def Node.IsMadeOf (tokens : List Token) : Node → Prop
  | .leaf leaf => leaf.IsMadeOf tokens
  | .conditional condition opening body =>
    .opening condition opening ∈ tokens ∧ ∀ leaf ∈ body, leaf.IsMadeOf tokens

/-- What comes from tokens comes from any more of them. -/
theorem Leaf.IsMadeOf.mono (made : leaf.IsMadeOf tokens) (subset : tokens ⊆ more) : leaf.IsMadeOf more :=
  made.imp fun _ ⟨member, same⟩ => ⟨subset member, same⟩

/-- What comes from tokens comes from any more of them. -/
theorem Node.IsMadeOf.mono (made : node.IsMadeOf tokens) (subset : tokens ⊆ more) : node.IsMadeOf more := by
  cases node with
  | leaf leaf => exact Leaf.IsMadeOf.mono made subset
  | conditional condition opening body =>
      exact ⟨subset made.1, fun leaf member => (made.2 leaf member).mono subset⟩

/-- The leaves of tokens come from them. -/
theorem isMadeOf_of_mem_map (member : leaf ∈ tokens.map Token.leaf) : leaf.IsMadeOf tokens :=
  List.mem_map.mp member

/-- The nodes of tokens come from them. -/
theorem isMadeOf_of_mem_nodesOf (member : node ∈ nodesOf tokens) : node.IsMadeOf tokens := by
  fun_induction nodesOf tokens with
  | case1 => cases member
  | case2 condition raw tokens body close behind closed inductionHypothesis =>
      obtain ⟨whole, _⟩ := split_at_closing closed
      rcases List.mem_cons.mp member with rfl | later
      · refine ⟨List.mem_cons_self, fun leaf inside => ?_⟩
        apply (isMadeOf_of_mem_map inside).mono
        intro token taken
        exact List.mem_cons_of_mem _ ((List.takeWhile_subset _) taken)
      · apply (inductionHypothesis later).mono
        intro token further
        rw [whole]
        exact List.mem_cons_of_mem _ (List.mem_append_right _ (List.mem_cons_of_mem _ further))
  | case3 condition raw tokens body closed =>
      rcases List.mem_cons.mp member with rfl | inside
      · exact ⟨.opening condition raw, List.mem_cons_self, rfl⟩
      · obtain ⟨leaf, within, rfl⟩ := List.mem_map.mp inside
        apply (isMadeOf_of_mem_map within).mono
        intro token taken
        exact List.mem_cons_of_mem _ ((List.takeWhile_subset _) taken)
  | case4 token tokens other inductionHypothesis =>
      rcases List.mem_cons.mp member with rfl | later
      · exact ⟨token, List.mem_cons_self, rfl⟩
      · exact (inductionHypothesis later).mono (List.subset_cons_self _ _)

/-! ## Conditions -/

/-- A condition stands trimmed behind the word that opens a block. -/
theorem exists_eq_trim_of_conditionOf? {inside : List Char} (found : conditionOf? inside = some condition) :
    ∃ rest, rest <:+: inside ∧ condition = Text.trim rest := by
  rw [conditionOf?] at found
  split at found
  · split at found
    · next c rest behind =>
      split at found
      · refine ⟨rest, ?_, (Option.some.inj found).symm⟩
        have suffix : c :: rest <:+ inside := by
          rw [← behind]
          exact List.drop_suffix ..
        exact ((List.suffix_cons c rest).trans suffix).isInfix
      · cases found
    · cases found
  · cases found

/-- The condition of an opening tag holds no end of a tag. -/
theorem not_tagEnd_infix_of_isRead (read : (Token.opening condition raw).IsRead) : ¬tagEnd <:+: condition := by
  obtain ⟨inside, whole, found⟩ := isOpeningTag_of_isRead read
  have endless : Text.cutAt? tagEnd inside = none := by
    generalize same : Token.opening condition raw = token at read
    cases read with
    | text => cases same
    | unterminated => cases same
    | @tag other ends =>
        have alike : tagStart ++ other ++ tagEnd = tagStart ++ inside ++ tagEnd := by
          rw [← raw_tagToken, ← same, ← whole, Token.raw]
        rw [List.append_cancel_right_eq, List.append_cancel_left_eq] at alike
        rw [← alike]
        exact Text.cutAt?_before tagEnd_ne_nil ends
  obtain ⟨rest, within, rfl⟩ := exists_eq_trim_of_conditionOf? found
  intro occurs
  obtain ⟨before, after, parts⟩ :=
    occurs.trans ((Text.infix_trim rest).trans (within.trans (Text.infix_trim inside)))
  exact Text.cutAt?_ne_none before tagEnd after (by rw [parts, endless])

/-- The condition of an opening tag has no tag around it. -/
theorem unwrapCondition_of_isRead (read : (Token.opening condition raw).IsRead) :
    unwrapCondition condition = condition := by
  obtain ⟨inside, _, found⟩ := isOpeningTag_of_isRead read
  obtain ⟨rest, _, rfl⟩ := exists_eq_trim_of_conditionOf? found
  have bare : tagInside? (Text.trim rest) = none := by
    rw [tagInside?, if_neg]
    intro wrapped
    simp only [Bool.and_eq_true] at wrapped
    exact not_tagEnd_infix_of_isRead read (List.isSuffixOf_iff_suffix.mp wrapped.2).isInfix
  rw [unwrapCondition, Text.trim_trim, bare]

/-- A condition that looks something up is a reference that its tag lists. -/
theorem reference?_opening (parameter : (Context.parameterName? (String.ofList condition)).isSome = true)
    (reference : isReference condition = true) :
    (Token.opening condition raw).reference? = some condition := by
  have other : (condition == ['t', 'r', 'u', 'e'] || condition == ['f', 'a', 'l', 's', 'e']) = false := by
    rw [Bool.or_eq_false_iff, beq_eq_false_iff_ne, beq_eq_false_iff_ne]
    constructor
    · rintro rfl
      revert parameter
      decide
    · rintro rfl
      revert parameter
      decide
  simp [Token.reference?, other, reference]

/-- The condition of an opening tag holds in both of two contexts that agree on what the tag lists. -/
theorem holds_congr (read : (Token.opening condition raw).IsRead)
    (agree : ∀ reference, (Token.opening condition raw).reference? = some reference
      → left.lookup (String.ofList reference) = right.lookup (String.ofList reference)) :
    holds condition left = holds condition right := by
  rw [holds, holds, unwrapCondition_of_isRead read]
  split
  · rfl
  · dsimp only
    split
    · next looked =>
      rw [Bool.and_eq_true] at looked
      rw [agree condition (reference?_opening looked.1 looked.2)]
    · rfl

/-! ## Leaves -/

/-- A leaf is rendered alike in two contexts with the same module that agree on its reference. -/
theorem renderLeaf_congr (same : left.current = right.current)
    (agree : ∀ reference raw, leaf = .variable reference raw
      → left.lookup (String.ofList reference) = right.lookup (String.ofList reference)) :
    renderLeaf left destination leaf = renderLeaf right destination leaf := by
  cases leaf with
  | text raw => rfl
  | «variable» reference raw =>
      have checked : checkRequired left = checkRequired right := by
        funext name
        simp only [checkRequired, namedParameter?, same]
      simp only [renderLeaf, agree reference raw rfl, checked]

/-- Leaves are rendered alike if each of them is. -/
theorem renderLeaves_congr {leaves : List Leaf}
    (alike : ∀ leaf ∈ leaves, renderLeaf left destination leaf = renderLeaf right destination leaf) :
    renderLeaves left destination leaves = renderLeaves right destination leaves := by
  induction leaves with
  | nil => rfl
  | cons leaf rest inductionHypothesis =>
      obtain ⟨here, later⟩ := List.forall_mem_cons.mp alike
      rw [renderLeaves, renderLeaves, here, inductionHypothesis later]

/-- The leaves that are rendered come from the tokens of the template. -/
theorem isMadeOf_of_mem_shownLeaves (member : leaf ∈ shownLeaves left (nodesOf tokens)) :
    leaf.IsMadeOf tokens := by
  obtain ⟨node, among, shown⟩ := List.mem_flatMap.mp member
  have made := isMadeOf_of_mem_nodesOf among
  cases node with
  | leaf single =>
      obtain rfl := List.mem_singleton.mp shown
      exact made
  | conditional condition opening body =>
      rw [Node.shown] at shown
      split at shown
      · exact made.2 leaf shown
      · cases shown

/-- The same leaves are rendered in contexts that agree on what opening tags list. -/
theorem shownLeaves_congr (read : ∀ token ∈ tokens, token.IsRead)
    (agree : ∀ token ∈ tokens, ∀ reference, token.reference? = some reference
      → left.lookup (String.ofList reference) = right.lookup (String.ofList reference)) :
    shownLeaves left (nodesOf tokens) = shownLeaves right (nodesOf tokens) := by
  rw [shownLeaves, shownLeaves]
  refine List.flatMap_congr fun node member => ?_
  have made := isMadeOf_of_mem_nodesOf member
  cases node with
  | leaf single => rfl
  | conditional condition opening body =>
      rw [Node.shown, Node.shown, holds_congr (read _ made.1) (agree _ made.1)]

/-- Contexts with the same module that agree on the references of a template give it the same text or the
same fault. -/
theorem render_eq_of_agree (same : left.current = right.current)
    (agree : ∀ reference ∈ references template,
      left.lookup (String.ofList reference) = right.lookup (String.ofList reference)) :
    render left destination template = render right destination template := by
  have listed : ∀ token ∈ tokenize template, ∀ reference, token.reference? = some reference
      → left.lookup (String.ofList reference) = right.lookup (String.ofList reference) := by
    intro token member reference found
    exact agree reference (List.mem_eraseDups.mpr (List.mem_filterMap.mpr ⟨token, member, found⟩))
  rw [render_eq, render_eq, parse, ← shownLeaves_congr (isRead_of_mem_tokenize template) listed]
  refine renderLeaves_congr fun leaf shown => renderLeaf_congr same fun reference raw isVariable => ?_
  obtain ⟨token, member, source⟩ := isMadeOf_of_mem_shownLeaves shown
  subst isVariable
  cases token with
  | «variable» named written =>
      obtain ⟨rfl, rfl⟩ := Leaf.variable.inj source
      exact listed _ member named rfl
  | _ => cases source

/-- A template that asks whether there is a second factor. -/
def asking : List Char :=
  "\x7b\x7b#if module.parameters.mfa\x7d\x7d\x7b\x7bframework\x7d\x7d\x7b\x7b/if\x7d\x7d\x7b\x7bnope\x7d\x7d".toList

/-- Two secrets, of which one comes with an element, make no difference to such a template. -/
theorem render_eq_of_agree_secrets :
    references asking = ["module.parameters.mfa".toList, "framework".toList, "nope".toList]
      ∧ render (authContext [(.text "mfa", .bool true), (.text "secret", .text "one")]) nowhere asking
        = render ((authContext [(.text "secret", .text "two"), (.text "mfa", .bool true)]).withItem .null)
          nowhere asking := by
  have listed : references asking
      = ["module.parameters.mfa".toList, "framework".toList, "nope".toList] := by decide +kernel
  refine ⟨listed, render_eq_of_agree rfl ?_⟩
  rw [listed]
  exact List.forall_mem_cons.mpr ⟨rfl, List.forall_mem_cons.mpr ⟨rfl, List.forall_mem_singleton.mpr rfl⟩⟩

end Scaffold.Template
