import Scaffold.Proofs.Template.Rendering
import Scaffold.Proofs.Text.Trimming

/-!
# Templates that are put together

A template without problems ends outside of blocks and outside of tags.  So whatever stands behind it is
read as if it stood alone (`exists_tokenize_append`, `nodesOf_append`), but for a tag whose two braces meet
at the seam, and the whole is rendered as its parts one after the other.

A condition of an action may be written bare or as the tag that opens a block.  Without braces in it the two are read
as the same expression (`unwrapCondition_openingTag`, `unwrapCondition_unbraced`), which is also the one that a
template with that tag asks for, whatever blanks and line ends stand around it and whatever word it starts with.
-/

namespace Scaffold.Template

variable {context : Context} {destination : Destination} {first second last text condition body : List Char}
  {opening raw : List Char} {opened : Option (List Char)} {token close : Token}
  {tokens inner rest : List Token}

/-- Whether a token is a tag that opens or closes a block. -/
def Token.isBlockTag : Token → Bool
  | .opening _ _ => true
  | .closing _ => true
  | _ => false

/-- The tag that opens a block. -/
def openingTag (condition : List Char) : List Char := tagStart ++ (openingWord ++ ' ' :: condition) ++ tagEnd

/-- The tag that closes a block. -/
def closingTag : List Char := tagStart ++ closingWord ++ tagEnd

/-- What tokens are rendered as. -/
def renderTokens (context : Context) (destination : Destination) (tokens : List Token) :
    Except RenderFault (List Char) :=
  renderLeaves context destination (shownLeaves context (nodesOf tokens))

/-! ## Tokens without problems -/

/-- Plain text has no problems. -/
theorem problemsFrom_append_textTokens (tokens : List Token) (text : List Char) :
    problemsFrom opened (tokens ++ textTokens text) = problemsFrom opened tokens := by
  induction tokens generalizing opened with
  | nil =>
      rw [List.nil_append, textTokens]
      split
      · rfl
      · simp [problemsFrom]
  | cons token tokens inductionHypothesis =>
      cases token <;> cases opened <;> simp [problemsFrom, inductionHypothesis]

/-- Where there are no problems, every tag ends. -/
theorem unterminated_notMem (sound : problemsFrom opened tokens = []) : .unterminated raw ∉ tokens := by
  induction tokens generalizing opened with
  | nil => exact List.not_mem_nil
  | cons token tokens inductionHypothesis =>
      intro member
      rcases List.mem_cons.mp member with rfl | later
      · cases sound
      · cases token with
        | text | «variable» => exact inductionHypothesis (by simpa [problemsFrom] using sound) later
        | unterminated => cases sound
        | opening =>
            cases opened with
            | none => exact inductionHypothesis (by simpa [problemsFrom] using sound) later
            | some => cases sound
        | closing =>
            cases opened with
            | none => cases sound
            | some => exact inductionHypothesis (by simpa [problemsFrom] using sound) later

/-- A block is one node, whatever stands behind it. -/
theorem nodesOf_block (unclosed : ∀ token ∈ inner, token.isClosing = false) (closes : close.isClosing = true)
    (rest : List Token) :
    nodesOf (.opening condition raw :: (inner ++ close :: rest))
      = .conditional condition raw (inner.map Token.leaf) :: nodesOf rest := by
  have passed : ∀ token ∈ inner, (!token.isClosing) = true := by
    intro token member
    rw [unclosed token member]
    rfl
  have body : (inner ++ close :: rest).takeWhile (fun token => !token.isClosing) = inner := by
    rw [List.takeWhile_append_of_pos passed, List.takeWhile_cons_of_neg (by simp [closes]), List.append_nil]
  have behind : (inner ++ close :: rest).dropWhile (fun token => !token.isClosing) = close :: rest := by
    rw [List.dropWhile_append_of_pos passed, List.dropWhile_cons_of_neg (by simp [closes])]
  rw [nodesOf, body]
  split
  next other after found =>
    rw [behind] at found
    rw [(List.cons.inj found).2]
  next found =>
    rw [behind] at found
    cases found

/-- A token that opens no block is a leaf. -/
theorem nodesOf_cons (other : ∀ condition raw, token ≠ .opening condition raw) (rest : List Token) :
    nodesOf (token :: rest) = .leaf token.leaf :: nodesOf rest := by
  cases token with
  | opening condition raw => exact absurd rfl (other condition raw)
  | _ => rw [nodesOf]; simp

/-- Tokens that open no block are leaves. -/
theorem nodesOf_leaves (others : ∀ token ∈ tokens, token.isBlockTag = false) :
    nodesOf tokens = (tokens.map Token.leaf).map Node.leaf := by
  induction tokens with
  | nil => rw [nodesOf]; rfl
  | cons token tokens inductionHypothesis =>
      obtain ⟨here, later⟩ := List.forall_mem_cons.mp others
      rw [nodesOf_cons, inductionHypothesis later]
      · rfl
      · rintro condition raw rfl
        cases here

/-- What stands behind tokens without problems makes up nodes of its own. -/
theorem nodesOf_append (sound : problemsFrom none tokens = []) (rest : List Token) :
    nodesOf (tokens ++ rest) = nodesOf tokens ++ nodesOf rest := by
  fun_induction nodesOf tokens with
  | case1 => rfl
  | case2 condition raw tokens body close behind closed inductionHypothesis =>
      obtain ⟨whole, closes⟩ := split_at_closing closed
      have unclosed : ∀ token ∈ tokens.takeWhile fun token => !token.isClosing, token.isClosing = false :=
        fun token inside => by simpa using List.mem_takeWhile_imp inside
      have reported := length_problemsFrom_open raw unclosed (close :: behind)
      rw [← whole] at reported
      have later : problemsFrom none behind = [] := by
        rw [problemsFrom] at sound
        rw [sound] at reported
        cases close with
        | closing => exact List.length_eq_zero_iff.mp (by simp [problemsFrom] at reported; omega)
        | _ => cases closes
      conv_lhs => rw [whole]
      rw [List.cons_append, List.append_assoc, List.cons_append, nodesOf_block unclosed closes,
        inductionHypothesis later]
      rfl
  | case3 condition raw tokens body closed =>
      have unclosed : ∀ token ∈ tokens, token.isClosing = false := by
        simpa using List.dropWhile_eq_nil_iff.mp closed
      have reported := length_problemsFrom_open raw unclosed []
      rw [problemsFrom] at sound
      rw [List.append_nil, sound] at reported
      simp [problemsFrom] at reported
  | case4 token tokens other inductionHypothesis =>
      have later : problemsFrom none tokens = [] := by
        cases token with
        | opening condition raw => exact absurd rfl (other condition raw)
        | closing | unterminated => cases sound
        | text | «variable» => simpa [problemsFrom] using sound
      rw [List.cons_append, nodesOf_cons other, inductionHypothesis later]
      rfl

/-! ## The seam of two templates -/

/-- A text is cut into tokens from its first tag on. -/
theorem tokenize_tagged {before tag : List Char} (started : Text.cutAt? tagStart text = some (before, tag)) :
    tokenize text = textTokens before ++ tokenize (tagStart ++ tag) := by
  rw [tokenize]
  split
  next untagged =>
    rw [started] at untagged
    cases untagged
  next front behind found =>
    rw [started] at found
    obtain ⟨rfl, rfl⟩ := Prod.mk.inj (Option.some.inj found)
    split
    next endless => rw [tokenize_endless endless]
    next inside after ends => rw [tokenize_tag ends]

/-- A template in which every tag ends is a number of tokens and a plain text behind them, and what follows
it is read together with that text. -/
theorem exists_tokenize_append (ended : ∀ raw, .unterminated raw ∉ tokenize first) :
    ∃ front last, last <:+ first ∧ Text.cutAt? tagStart last = none
      ∧ ∀ second, tokenize (first ++ second) = front ++ tokenize (last ++ second) := by
  fun_induction tokenize first with
  | case1 template untagged =>
      exact ⟨[], template, List.suffix_rfl, untagged, fun second => rfl⟩
  | case2 template before tag started endless =>
      exact absurd (List.mem_append_right _ List.mem_cons_self) (ended (tagStart ++ tag))
  | case3 template before tag started inside after ends inductionHypothesis =>
      obtain ⟨front, last, suffix, untagged, joined⟩ := inductionHypothesis fun raw member =>
        ended raw (List.mem_append_right _ (List.mem_cons_of_mem _ member))
      have inner : tag = inside ++ tagEnd ++ after := (Text.append_of_cutAt? ends).symm
      have whole : template = before ++ tagStart ++ tag := (Text.append_of_cutAt? started).symm
      have within : after <:+ template := by
        rw [whole, inner, ← List.append_assoc, ← List.append_assoc]
        exact List.suffix_append ..
      refine ⟨textTokens before ++ tagToken inside :: front, last, suffix.trans within, untagged, ?_⟩
      intro second
      have startedLonger : Text.cutAt? tagStart (template ++ second) = some (before, tag ++ second) := by
        rw [whole, List.append_assoc]
        exact Text.cutAt?_append tagStart_ne_nil started (tag ++ second)
      have endsLonger : Text.cutAt? tagEnd (tag ++ second) = some (inside, after ++ second) := by
        rw [inner, List.append_assoc]
        exact Text.cutAt?_append tagEnd_ne_nil ends (after ++ second)
      rw [tokenize_tagged startedLonger, tokenize_tag endsLonger, joined, List.append_assoc, List.cons_append]

/-- A plain text becomes part of the text that a template starts with. -/
theorem exists_tokenize_text (untagged : Text.cutAt? tagStart last = none)
    (apart : ¬(last.getLast? = some '\x7b' ∧ second.head? = some '\x7b')) :
    ∃ lead rest, tokenize second = textTokens lead ++ rest
      ∧ tokenize (last ++ second) = textTokens (last ++ lead) ++ rest := by
  have seam := Text.cutAt?_append_of_apart untagged apart
  cases started : Text.cutAt? tagStart second with
  | none =>
      rw [← tagStart, started] at seam
      refine ⟨second, [], ?_, ?_⟩
      · rw [tokenize_untagged started, List.append_nil]
      · rw [tokenize_untagged seam, List.append_nil]
  | some parts =>
      obtain ⟨before, tag⟩ := parts
      rw [← tagStart, started] at seam
      exact ⟨before, tokenize (tagStart ++ tag), tokenize_tagged started, tokenize_tagged seam⟩

/-- A plain text in front of a tag is a token of its own. -/
theorem tokenize_text_tag (untagged : Text.cutAt? tagStart last = none) (ended : last.getLast? ≠ some '\x7b')
    (tag : List Char) :
    tokenize (last ++ (tagStart ++ tag)) = textTokens last ++ tokenize (tagStart ++ tag) := by
  have apart : ¬(last.getLast? = some '\x7b' ∧ (tagStart ++ tag).head? = some '\x7b') :=
    fun both => ended both.1
  have seam := Text.cutAt?_append_of_apart untagged apart
  rw [← tagStart, Text.cutAt?_self tagStart_ne_nil, Option.map_some, List.append_nil] at seam
  exact tokenize_tagged seam

/-! ## Rendering -/

/-- No tokens are rendered as no text. -/
theorem renderTokens_nil : renderTokens context destination [] = .ok [] := by
  rw [renderTokens, nodesOf]
  rfl

/-- Tokens without problems are rendered before what follows them. -/
theorem renderTokens_append (sound : problemsFrom none tokens = []) (rest : List Token) :
    renderTokens context destination (tokens ++ rest)
      = do return (← renderTokens context destination tokens)
        ++ (← renderTokens context destination rest) := by
  rw [renderTokens, nodesOf_append sound, shownLeaves_append, renderLeaves_append]
  rfl

/-- Plain text is rendered as it is. -/
theorem renderTokens_text (text : List Char) (rest : List Token) :
    renderTokens context destination (textTokens text ++ rest)
      = (renderTokens context destination rest).map (text ++ ·) := by
  rw [textTokens]
  split
  next empty =>
    rw [List.isEmpty_iff.mp empty, List.nil_append]
    cases renderTokens context destination rest <;> rfl
  next =>
    rw [renderTokens, List.singleton_append, nodesOf_cons (fun _ _ => Token.noConfusion), shownLeaves_cons]
    simp only [Node.shown, Token.leaf, List.singleton_append, renderLeaves]
    rw [← renderTokens]
    cases renderTokens context destination rest <;> rfl

/-- A template is rendered and then what stands behind it, if it has no problems and no tag starts at the
seam. -/
theorem render_append (sound : problems first = [])
    (apart : ¬(first.getLast? = some '\x7b' ∧ second.head? = some '\x7b')) :
    render context destination (first ++ second)
      = do return (← render context destination first) ++ (← render context destination second) := by
  obtain ⟨front, last, suffix, untagged, joined⟩ :=
    exists_tokenize_append fun _ => unterminated_notMem sound
  have alone : tokenize first = front ++ textTokens last := by
    have whole := joined []
    rwa [List.append_nil, List.append_nil, tokenize_untagged untagged] at whole
  have closed : problemsFrom none front = [] := by
    rw [← problemsFrom_append_textTokens front last, ← alone]
    exact sound
  have apart' : ¬(last.getLast? = some '\x7b' ∧ second.head? = some '\x7b') := by
    rintro ⟨ends, starts⟩
    obtain ⟨lead, rfl⟩ := suffix
    refine apart ⟨?_, starts⟩
    rw [List.getLast?_append, ends]
    rfl
  obtain ⟨lead, rest, behind, merged⟩ := exists_tokenize_text untagged apart'
  have before : render context destination first
      = (renderTokens context destination front).map (· ++ last) := by
    rw [render_eq, parse, ← renderTokens, alone, renderTokens_append closed]
    rw [← List.append_nil (textTokens last), renderTokens_text, renderTokens_nil]
    cases renderTokens context destination front with
    | error fault => rfl
    | ok written => exact congrArg (fun text => Except.ok (written ++ text)) (List.append_nil last)
  rw [before, render_eq, parse, ← renderTokens, joined, merged, renderTokens_append closed,
    renderTokens_text, render_eq, parse, ← renderTokens, behind, renderTokens_text]
  cases renderTokens context destination front with
  | error fault => rfl
  | ok written =>
      cases renderTokens context destination rest with
      | error fault => rfl
      | ok others =>
          have same : written ++ (last ++ lead ++ others) = written ++ last ++ (lead ++ others) := by
            simp only [List.append_assoc]
          exact congrArg Except.ok same

/-- A text without tags is rendered as it is. -/
theorem render_untagged (context : Context) {destination : Destination} {text : List Char}
    (untagged : Text.cutAt? tagStart text = none) :
    problems text = [] ∧ render context destination text = .ok text := by
  have tokens := tokenize_untagged untagged
  constructor
  · rw [problems, tokens]
    exact problemsFrom_append_textTokens [] text
  · rw [render_eq, parse, tokens, ← renderTokens, ← List.append_nil (textTokens text), renderTokens_text,
      renderTokens_nil]
    exact congrArg Except.ok (List.append_nil text)

/-- A text without braces has no tags. -/
theorem untagged_of_unbraced {text : List Char} (unbraced : '\x7b' ∉ text) :
    Text.cutAt? tagStart text = none := by
  cases found : Text.cutAt? tagStart text with
  | none => rfl
  | some parts =>
      have whole := Text.append_of_cutAt? found
      exact absurd (by rw [← whole]; simp [tagStart]) unbraced

/-- So it is rendered as it is. -/
theorem render_unbraced (context : Context) {destination : Destination} {text : List Char}
    (unbraced : '\x7b' ∉ text) :
    problems text = [] ∧ render context destination text = .ok text :=
  render_untagged context (untagged_of_unbraced unbraced)

/-! ## Blocks -/

/-- The condition of a tag that opens a block is what stands behind the opening word. -/
theorem conditionOf?_trim_opening (visible : Text.isAllBlank condition = false) :
    conditionOf? (Text.trim (openingWord ++ ' ' :: condition)) = some (Text.trim condition) := by
  obtain ⟨c, member, kept⟩ : ∃ c ∈ condition, Text.isBlank c = false := by
    simpa [Text.isAllBlank] using visible
  have started : Text.trimLeftWhere Text.isBlank (openingWord ++ ' ' :: condition)
      = openingWord ++ ' ' :: condition :=
    List.dropWhile_cons_of_neg (by decide)
  have trimmed : Text.trim (openingWord ++ ' ' :: condition)
      = openingWord ++ ' ' :: Text.trimRight condition := by
    rw [Text.trim, Text.trimWhere, started, List.append_cons, Text.trimRightWhere_append_of_mem member kept,
      ← List.append_cons]
    rfl
  rw [trimmed, ← Text.trim_trimRight condition]
  rfl

/-- The tag that opens a block is read as such, with the condition that stands in it. -/
theorem tagToken_opening (visible : Text.isAllBlank condition = false) :
    tagToken (openingWord ++ ' ' :: condition) = .opening (Text.trim condition) (openingTag condition) := by
  rw [tagToken, conditionOf?_trim_opening visible]
  rfl

/-- The tag that closes a block is read as such. -/
theorem tagToken_closing : tagToken closingWord = .closing closingTag := by
  have found : conditionOf? (Text.trim closingWord) = none := by decide
  have trimmed : Text.trim closingWord == closingWord := by decide
  rw [tagToken, found]
  simp only [trimmed, if_true]
  rfl

/-- The tag that closes a block is one token. -/
theorem tokenize_closingTag : tokenize closingTag = [.closing closingTag] := by
  have ends : Text.cutAt? tagEnd (closingWord ++ tagEnd ++ []) = some (closingWord, []) :=
    Text.cutAt?_of_notMem (by decide) []
  rw [List.append_nil] at ends
  rw [closingTag, List.append_assoc, tokenize_tag ends, tokenize_nil, tagToken_closing]
  rfl

/-- A block is read as its opening tag, the tokens of its body and its closing tag. -/
theorem tokenize_block (visible : Text.isAllBlank condition = false) (unbraced : '\x7d' ∉ condition)
    (sound : problems body = []) (ended : body.getLast? ≠ some '\x7b') :
    tokenize (openingTag condition ++ body ++ closingTag)
      = .opening (Text.trim condition) (openingTag condition)
        :: (tokenize body ++ [.closing closingTag]) := by
  obtain ⟨front, last, suffix, untagged, joined⟩ :=
    exists_tokenize_append fun _ => unterminated_notMem sound
  have inner : tokenize (body ++ closingTag) = tokenize body ++ [.closing closingTag] := by
    have unended : last.getLast? ≠ some '\x7b' := by
      intro ends
      obtain ⟨lead, rfl⟩ := suffix
      apply ended
      rw [List.getLast?_append, ends]
      rfl
    have alone := joined []
    rw [List.append_nil, List.append_nil, tokenize_untagged untagged] at alone
    rw [joined, alone, List.append_assoc, closingTag, List.append_assoc,
      tokenize_text_tag untagged unended, ← List.append_assoc tagStart, ← closingTag, tokenize_closingTag]
  have ends : Text.cutAt? tagEnd (openingWord ++ ' ' :: condition ++ tagEnd ++ (body ++ closingTag))
      = some (openingWord ++ ' ' :: condition, body ++ closingTag) :=
    Text.cutAt?_of_notMem (by simpa [openingWord] using unbraced) _
  have whole : openingTag condition ++ body ++ closingTag
      = tagStart ++ (openingWord ++ ' ' :: condition ++ tagEnd ++ (body ++ closingTag)) := by
    rw [openingTag]
    simp only [List.append_assoc]
  rw [whole, tokenize_tag ends, inner, tagToken_opening visible]

/-- Blanks around a condition do not matter. -/
theorem holds_trim (condition : List Char) (context : Context) :
    holds (Text.trim condition) context = holds condition context := by
  rw [holds, holds, unwrapCondition, unwrapCondition, Text.trim_trim]

/-- A block is rendered as its body if its condition holds, and else as nothing. -/
theorem render_block (visible : Text.isAllBlank condition = false) (unbraced : '\x7d' ∉ condition)
    (sound : problems body = []) (plain : ∀ token ∈ tokenize body, token.isBlockTag = false)
    (ended : body.getLast? ≠ some '\x7b') :
    render context destination (openingTag condition ++ body ++ closingTag)
      = if holds condition context then render context destination body else .ok [] := by
  have unclosed : ∀ token ∈ tokenize body, token.isClosing = false := by
    intro token member
    have other := plain token member
    cases token with
    | closing => cases other
    | _ => rfl
  have nodes : parse (openingTag condition ++ body ++ closingTag)
      = [.conditional (Text.trim condition) (openingTag condition) ((tokenize body).map Token.leaf)] := by
    rw [parse, tokenize_block visible unbraced sound ended, nodesOf_block unclosed rfl, nodesOf]
  rw [render_eq, nodes, shownLeaves_cons, shownLeaves_nil, List.append_nil, Node.shown, holds_trim]
  split
  · rw [render_eq, parse, nodesOf_leaves plain, shownLeaves_leaves]
  · rfl

/-- A template without problems and what stands behind it are rendered one after the other, and fail as the
first of them that fails; only a tag that starts at the seam is excepted.  A block is rendered as its body
if its condition holds, and otherwise as nothing. -/
theorem render_composes (context : Context) (destination : Destination) :
    (∀ first second, problems first = []
        → ¬(first.getLast? = some '\x7b' ∧ second.head? = some '\x7b')
        → render context destination (first ++ second)
          = do return (← render context destination first) ++ (← render context destination second))
      ∧ ∀ condition body, '\x7b' ∉ condition → '\x7d' ∉ condition → Text.isAllBlank condition = false
        → problems body = [] → (∀ token ∈ tokenize body, token.isBlockTag = false)
        → body.getLast? ≠ some '\x7b'
        → render context destination (openingTag condition ++ body ++ closingTag)
          = if holds condition context then render context destination body else .ok [] :=
  ⟨fun _ _ => render_append, fun _ _ _ unbraced visible => render_block visible unbraced⟩

/-- A template that ends in a brace, an unknown reference behind it, and a block for a second factor. -/
theorem render_composes_login :
    (problems "\x7b\x7bproject.name\x7d\x7d \x7b".toList = []
        ∧ render (authContext [(.text "mfa", .bool true)]) nowhere
            ("\x7b\x7bproject.name\x7d\x7d \x7b".toList ++ "x\x7b\x7bnope\x7d\x7d".toList)
          = .ok "demo \x7bx\x7b\x7bnope\x7d\x7d".toList)
      ∧ render (authContext [(.text "mfa", .bool true)]) nowhere
          (openingTag "module.parameters.mfa".toList ++ "on \x7b\x7bframework\x7d\x7d".toList ++ closingTag)
        = .ok "on nextjs".toList := by
  have sound : problems "\x7b\x7bproject.name\x7d\x7d \x7b".toList = [] := by decide +kernel
  have named : parse "\x7b\x7bproject.name\x7d\x7d \x7b".toList
      = [.leaf (.variable "project.name".toList "\x7b\x7bproject.name\x7d\x7d".toList),
        .leaf (.text " \x7b".toList)] := by decide +kernel
  have unknown : parse "x\x7b\x7bnope\x7d\x7d".toList
      = [.leaf (.text "x".toList), .leaf (.variable "nope".toList "\x7b\x7bnope\x7d\x7d".toList)] := by decide +kernel
  have tokens : tokenize "on \x7b\x7bframework\x7d\x7d".toList
      = [.text "on ".toList, .variable "framework".toList "\x7b\x7bframework\x7d\x7d".toList] := by decide +kernel
  refine ⟨⟨sound, ?_⟩, ?_⟩
  · rw [(render_composes _ nowhere).1 _ _ sound (by decide), render_eq, render_eq, named, unknown]
    rfl
  · have holding : holds "module.parameters.mfa".toList (authContext [(.text "mfa", .bool true)]) = true := by
      decide
    have plain : ∀ token ∈ tokenize "on \x7b\x7bframework\x7d\x7d".toList, token.isBlockTag = false := by
      rw [tokens]
      decide
    rw [(render_composes _ nowhere).2 _ _ (by decide) (by decide) (by decide) (by rw [problems, tokens]; rfl)
      plain (by decide), holding, render_eq, parse, nodesOf_leaves plain, tokens]
    rfl

/-! ## Conditions outside of templates -/

/-- A condition without an opening brace has no tag around it. -/
theorem unwrapCondition_unbraced (unbraced : '\x7b' ∉ condition) :
    unwrapCondition condition = Text.trim condition := by
  have bare : tagInside? (Text.trim condition) = none := by
    rw [tagInside?, if_neg]
    intro wrapped
    simp only [Bool.and_eq_true] at wrapped
    have starts := List.isPrefixOf_iff_prefix.mp wrapped.1.2
    have brace : '\x7b' ∈ Text.trim condition := starts.subset List.mem_cons_self
    exact unbraced ((Text.infix_trim condition).subset brace)
  rw [unwrapCondition, bare]

/-- Nothing is trimmed from a tag that opens a block. -/
theorem trim_openingTag (condition : List Char) : Text.trim (openingTag condition) = openingTag condition := by
  refine Text.trimWhere_eq_self (fun c first => ?_) fun c last => ?_
  · rw [← Option.some.inj first]
    decide
  · rw [openingTag, List.getLast?_append] at last
    rw [← Option.some.inj last]
    decide

/-- A tag has its inside between its braces. -/
theorem tagInside?_tag {inside : List Char} (nonempty : inside ≠ []) :
    tagInside? (tagStart ++ inside ++ tagEnd) = some (Text.trim inside) := by
  have longer := List.length_pos_iff.mpr nonempty
  rw [tagInside?, if_pos]
  · simp [tagStart, tagEnd]
  · simp only [Bool.and_eq_true, decide_eq_true_iff, List.isPrefixOf_iff_prefix, List.isSuffixOf_iff_suffix]
    refine ⟨⟨?_, ?_⟩, List.suffix_append _ _⟩
    · simp only [List.length_append]
      omega
    · rw [List.append_assoc]
      exact List.prefix_append _ _

/-- A condition that is written as a tag is what stands behind the opening word. -/
theorem unwrapCondition_openingTag (visible : Text.isAllBlank condition = false) :
    unwrapCondition (openingTag condition) = Text.trim condition := by
  rw [unwrapCondition, trim_openingTag, openingTag, tagInside?_tag (by simp [openingWord])]
  simp only [conditionOf?_trim_opening visible, Option.getD_some]

/-- A condition holds bare as it holds in a tag, and a block with that tag shows its body exactly if it holds. -/
theorem holds_agrees (context : Context) (destination : Destination) (visible : Text.isAllBlank condition = false)
    (unbraced : '\x7b' ∉ condition ∧ '\x7d' ∉ condition) :
    holds (openingTag condition) context = holds condition context
      ∧ render context destination (openingTag condition ++ ['X'] ++ closingTag)
        = .ok (if holds condition context then ['X'] else []) := by
  constructor
  · rw [holds, holds, unwrapCondition_openingTag visible, unwrapCondition_unbraced unbraced.1]
  · obtain ⟨sound, body⟩ : problems ['X'] = [] ∧ render context destination ['X'] = .ok ['X'] :=
      render_unbraced context (by decide)
    have plain : ∀ token ∈ tokenize ['X'], token.isBlockTag = false := by
      rw [tokenize_untagged (by decide)]
      decide
    rw [render_block visible unbraced.2 sound plain (by decide), body]
    split <;> rfl

/-- A parameter on a line of its own, and an expression that starts with the opening word. -/
theorem holds_agrees_mfa :
    (Text.isAllBlank "\n  module.parameters.mfa\t".toList = false
        ∧ ('\x7b' ∉ "\n  module.parameters.mfa\t".toList ∧ '\x7d' ∉ "\n  module.parameters.mfa\t".toList)
        ∧ holds (openingTag "\n  module.parameters.mfa\t".toList) (authContext [(.text "mfa", .bool true)]) = true)
      ∧ render (authContext []) nowhere (openingTag "#if true".toList ++ ['X'] ++ closingTag) = .ok [] := by
  have visible : Text.isAllBlank "\n  module.parameters.mfa\t".toList = false := by decide
  have unbraced : '\x7b' ∉ "\n  module.parameters.mfa\t".toList ∧ '\x7d' ∉ "\n  module.parameters.mfa\t".toList := by
    decide
  have opening : Text.isAllBlank "#if true".toList = false := by decide
  refine ⟨⟨visible, unbraced, ?_⟩, ?_⟩
  · rw [(holds_agrees _ nowhere visible unbraced).1]
    decide
  · rw [(holds_agrees _ nowhere opening (by decide)).2]
    have fails : holds "#if true".toList (authContext []) = false := by decide
    rw [fails]
    rfl

end Scaffold.Template
