import Scaffold.Proofs.Modifier.ListEdits

/-!
# What requests ask for

A request names what it takes from a source.  Besides a list of names it has wishes (`Request.wishes`), each of which
a content meets or a statement brings.  A wish that is met stays met when names are added (`Wish.met_extends`) and
when statements are inserted (`Wish.met_insert`), and an inserted statement meets its wish (`Wish.met_of_mem`).

A request changes a content by adding names to a list and brings statements for what the content lacks
(`Request.apply_content`, `Request.apply_statements`).  Over all requests the content keeps what it imports, every
wish is met by it or by a statement, and the first statement that lists names of a source is that of the first
request which names some (`advances_foldl`).
-/

namespace Scaffold.ImportAdd

open Scaffold.Text ImportStatement

/-- Something to import that is not in a list of names. -/
inductive Wish where
  | default (name source : String)
  | whole (name source : String)
  | any (source : String)
  deriving DecidableEq, Repr

/-- Whether a content has what is wished for. -/
def Wish.met (content : List Char) : Wish → Bool
  | .default name source => someLine (defaultImport name.toList source.toList) content
  | .whole name source => someLine (wholeImport name.toList source.toList) content
  | .any source => mentionsSource source.toList content

/-- The statement that brings what is wished for. -/
def Wish.statement : Wish → String
  | .default name source => defaultStatement name source
  | .whole name source => wholeStatement name source
  | .any source => bareStatement source

/-- A name for a source or a default export: nothing in it ends the statement or the line or starts a list. -/
def IsBindable (name : List Char) : Prop := ∀ c ∈ name, isClosing c = false ∧ c ≠ '\x7b' ∧ isLineEnd c = false

/-- A wish that a content can be seen to meet. -/
def Wish.IsPlain : Wish → Prop
  | .default name source => IsBindable name.toList ∧ isWord (name.toList.getLast?.getD ' ') = true
      ∧ IsNamable source.toList
  | .whole name source => IsBindable name.toList ∧ IsNamable source.toList
  | .any source => IsNamable source.toList

variable {content changed : List Char} {wish : Wish} {wanted statements : List (List Char)}

/-- A source that can be named is a single line. -/
theorem IsNamable.notMem_feed {source : List Char} (namable : IsNamable source) : '\n' ∉ source := fun member =>
  absurd (namable _ member).2.1 (by decide)

/-- A met wish stays met when names are added. -/
theorem Wish.met_extends (plain : wish.IsPlain) (listable : ∀ name ∈ wanted, IsListable name)
    (more : Extends wanted content changed) (met : wish.met content = true) : wish.met changed = true := by
  cases more with
  | same => exact met
  | names _ single contentIs changedIs =>
      subst contentIs changedIs
      cases wish with
      | default name source =>
          obtain ⟨bindable, _, namable⟩ := plain
          rw [Wish.met, someLine_iff fun _ _ => mem_defaultImport_iff] at met ⊢
          exact met.extended_default (fun member => (bindable _ member).2.1 rfl) namable single listable
      | whole name source =>
          obtain ⟨bindable, namable⟩ := plain
          rw [Wish.met, someLine_iff fun _ _ => mem_wholeImport_iff] at met ⊢
          refine met.extended (fun written isForm => ?_) single wanted
          exact isForm.notMem (fun member => (bindable _ member).2.1 rfl) namable
      | any source =>
          rw [Wish.met, mentionsSource_iff] at met ⊢
          refine met.imp (fun bare => ?_) fun clause => clause.extended_clause plain wanted
          exact bare.extended (fun written isForm => isForm.notMem plain) single wanted

/-- A met wish stays met when statements are inserted. -/
theorem Wish.met_insert (plain : wish.IsPlain) (lines : HasPlainLines content) (met : wish.met content = true)
    (statements : List (List Char)) : wish.met (insert content statements) = true := by
  cases wish with
  | default name source =>
      obtain ⟨bindable, _, namable⟩ := plain
      rw [Wish.met, someLine_iff fun _ _ => mem_defaultImport_iff] at met ⊢
      exact met.inserted lines (fun written isForm => isForm.flows (fun c member => (bindable c member).1)
        namable.notMem_feed) (.inl rfl) statements
  | whole name source =>
      obtain ⟨bindable, namable⟩ := plain
      rw [Wish.met, someLine_iff fun _ _ => mem_wholeImport_iff] at met ⊢
      exact met.inserted lines (fun written isForm => isForm.flows (fun c member => (bindable c member).1)
        namable.notMem_feed) (.inl rfl) statements
  | any source =>
      have namable : IsNamable source.toList := plain
      rw [Wish.met, mentionsSource_iff] at met ⊢
      refine met.imp (fun bare => ?_) fun clause => ?_
      · exact bare.inserted lines (fun written isForm => isForm.flows namable.notMem_feed) (.inl rfl) statements
      · refine clause.inserted lines (fun written isForm => isForm.flows namable.notMem_feed)
          (.inr fun written isForm => ?_) statements
        obtain ⟨rest, rfl⟩ := isForm.exists_cons
        exact ⟨_, _, rfl, by decide⟩

/-- The clause of a statement. -/
theorem fromClause_written (source : List Char) : FromClause source ("from '".toList ++ (source ++ ['\''])) :=
  @FromClause.intro source [' '] '\'' '\'' (by simp) (List.forall_mem_singleton.mpr (by decide)) rfl rfl

/-- A statement that imports a default export under a name that ends in a word. -/
theorem defaultImport_written {name : List Char} (last : isWord (name.getLast?.getD ' ') = true)
    (source : List Char) :
    DefaultImport name source ("import ".toList ++ (name ++ (' ' :: ("from '".toList ++ (source ++ ['\'']))))) := by
  refine @DefaultImport.intro name source [] [' '] [' '] _ (by simp) (by simp)
    (List.forall_mem_singleton.mpr (by decide)) ?_ (List.forall_mem_singleton.mpr (by decide))
    (fromClause_written source)
  rw [last]
  exact fun same => absurd same (by decide : true ≠ isWord ' ')

/-- A statement that imports a source as a whole. -/
theorem wholeImport_written (name source : List Char) :
    WholeImport name source ("import * as ".toList ++ (name ++ (' ' :: ("from '".toList ++ (source ++ ['\'']))))) :=
  @WholeImport.intro name source [] [' '] [' '] [' '] [' '] _ (by simp) (by simp)
    (List.all_eq_true.mp rfl) (fromClause_written source)

/-- A statement that only names a source. -/
theorem bareImport_written (source : List Char) :
    BareImport source ("import '".toList ++ (source ++ ['\''])) :=
  @BareImport.intro source [] [' '] '\'' '\'' (by simp) (by simp) (List.forall_mem_singleton.mpr (by decide)) rfl rfl

/-- A statement that is inserted meets its wish. -/
theorem Wish.met_of_mem (plain : wish.IsPlain) (member : wish.statement.toList ∈ statements)
    (content : List Char) :
    wish.met (insert content statements) = true := by
  have clause : " from '".toList = ' ' :: "from '".toList := rfl
  have closing : "';".toList = ['\'', ';'] := rfl
  cases wish with
  | default name source =>
      rw [Wish.met, someLine_iff fun _ _ => mem_defaultImport_iff]
      have whole : (Wish.default name source).statement.toList = "import ".toList ++ (name.toList ++ (' ' ::
          ("from '".toList ++ (source.toList ++ ['\''])))) ++ [';'] := by
        simp only [Wish.statement, defaultStatement, String.toList_append, clause, closing, List.append_assoc,
          List.cons_append, List.nil_append]
      exact .of_mem member whole (defaultImport_written plain.2.1 _) content
  | whole name source =>
      rw [Wish.met, someLine_iff fun _ _ => mem_wholeImport_iff]
      have whole : (Wish.whole name source).statement.toList = "import * as ".toList ++ (name.toList ++ (' ' ::
          ("from '".toList ++ (source.toList ++ ['\''])))) ++ [';'] := by
        simp only [Wish.statement, wholeStatement, String.toList_append, clause, closing, List.append_assoc,
          List.cons_append, List.nil_append]
      exact .of_mem member whole (wholeImport_written _ _) content
  | any source =>
      rw [Wish.met, mentionsSource_iff]
      have whole : (Wish.any source).statement.toList
        = "import '".toList ++ (source.toList ++ ['\'']) ++ [';'] := by
        simp only [Wish.statement, bareStatement, String.toList_append, closing, List.append_assoc, List.cons_append,
          List.nil_append]
      exact .inl (.of_mem member whole (bareImport_written _) content)

/-- The statement of a wish is a single line without a list of names. -/
theorem Wish.mem_statement (plain : wish.IsPlain) :
    ∀ c ∈ wish.statement.toList, isLineEnd c = false ∧ c ≠ '\x7b' := by
  have named {text : List Char} (namable : IsNamable text) : ∀ c ∈ text, isLineEnd c = false ∧ c ≠ '\x7b' :=
    fun c member => ⟨(namable c member).2.1, (namable c member).2.2.2.1⟩
  have bound {text : List Char} (bindable : IsBindable text) : ∀ c ∈ text, isLineEnd c = false ∧ c ≠ '\x7b' :=
    fun c member => ⟨(bindable c member).2.2, (bindable c member).2.1⟩
  have fixed {text : List Char} (all : text.all (fun c => !isLineEnd c && c != '\x7b') = true) :
      ∀ c ∈ text, isLineEnd c = false ∧ c ≠ '\x7b' := by simpa using all
  cases wish with
  | default name source =>
      simp only [Wish.statement, defaultStatement, String.toList_append, List.forall_mem_append]
      exact ⟨⟨⟨⟨fixed rfl, bound plain.1⟩, fixed rfl⟩, named plain.2.2⟩, fixed rfl⟩
  | whole name source =>
      simp only [Wish.statement, wholeStatement, String.toList_append, List.forall_mem_append]
      exact ⟨⟨⟨⟨fixed rfl, bound plain.1⟩, fixed rfl⟩, named plain.2⟩, fixed rfl⟩
  | any source =>
      simp only [Wish.statement, bareStatement, String.toList_append, List.forall_mem_append]
      exact ⟨⟨fixed rfl, named plain⟩, fixed rfl⟩

/-- The statement of a wish is read as no list. -/
theorem Wish.read?_statement (plain : wish.IsPlain) (source : List Char) :
    NameList.read? source wish.statement.toList = none := by
  refine Option.eq_none_iff_forall_ne_some.mpr fun list read => ?_
  have opening : '\x7b' ∈ wish.statement.toList := by
    rw [(NameList.read?_eq_some_iff.mp read).1, NameList.written]
    simp
  exact (Wish.mem_statement plain _ opening).2 rfl

variable {source tail : List Char} {request : Request} {requests : List Request}

/-! ## Statements that list names -/

/-- The list of the statement that imports the names of a request. -/
def Request.list (request : Request) : NameList :=
  ⟨"import ".toList, spaced (request.named.map String.toList),
    " from '".toList ++ (request.source.toList ++ "';".toList)⟩

/-- Its line, piece by piece. -/
theorem Request.written_list_eq (request : Request) :
    request.list.written = "import ".toList ++ '\x7b' :: (spaced (request.named.map String.toList)
      ++ '\x7d' :: (" from '".toList ++ (request.source.toList ++ "';".toList))) := rfl

/-- The statement that imports names is the line of its list. -/
theorem Request.written_list (request : Request) :
    (namedStatement request.named request.source).toList = request.list.written := by
  have joined : (String.intercalate ", " request.named).toList
      = joinWith [',', ' '] (request.named.map String.toList) := by
    rw [String.toList_intercalate, joinWith_eq_intercalate]
    rfl
  have opening : "import \x7b ".toList = "import ".toList ++ ['\x7b', ' '] := rfl
  have closing : " \x7d from '".toList = ' ' :: '\x7d' :: " from '".toList := rfl
  simp only [Request.written_list_eq, namedStatement, spaced, joined, String.toList_append, opening, closing,
    List.append_assoc, List.cons_append, List.nil_append]

/-- The text in the first quotation marks of a clause. -/
def namedSource (clause : List Char) : List Char :=
  ((((clause.dropWhile isBlank).drop 4).dropWhile isBlank).drop 1).takeWhile fun c => !isQuote c

/-- What stands behind the closing brace of a list names its source. -/
theorem namedSource_of_matchesAll (namable : IsNamable source)
    (matched : (tailPattern source).matchesAll tail = true) : namedSource tail = source := by
  rw [Pattern.matchesAll_iff] at matched
  simp only [tailPattern, evenlyQuoted, Pattern.mem_all_cons_iff, Pattern.mem_word_iff, Pattern.anyBlanks,
    Pattern.blanks, Pattern.mem_many_iff, Pattern.mem_some_iff, Pattern.mem_either_iff,
    Pattern.mem_literal_iff] at matched
  obtain ⟨_, ⟨gap, blank, rfl⟩, _, rfl, clause, ⟨apart, _, blanks, rfl⟩, rest, quoted, _⟩ := matched
  obtain ⟨quote, opens, rfl⟩ : ∃ quote, isQuote quote = true ∧ clause = quote :: (source ++ quote :: rest) := by
    rcases quoted with rfl | rfl
    · exact ⟨'\'', rfl, by simp⟩
    · exact ⟨'"', rfl, by simp⟩
  have shown : isBlank quote = false := isBlank_of_isClosing (by simp [isClosing, opens])
  have word : (gap ++ ("from".toList ++ (apart ++ quote :: (source ++ quote :: rest)))).dropWhile isBlank
      = "from".toList ++ (apart ++ quote :: (source ++ quote :: rest)) := by
    rw [List.dropWhile_append_of_pos blank]
    exact List.dropWhile_cons_of_neg (by decide)
  have clause : (apart ++ quote :: (source ++ quote :: rest)).dropWhile isBlank
      = quote :: (source ++ quote :: rest) := by
    rw [List.dropWhile_append_of_pos blanks, List.dropWhile_cons_of_neg (by simp [shown])]
  have named : (source ++ quote :: rest).takeWhile (fun c => !isQuote c) = source := by
    rw [List.takeWhile_append_of_pos fun c member => by simp [(namable c member).1],
      List.takeWhile_cons_of_neg (by simp [opens]), List.append_nil]
  have behind (text : List Char) : ("from".toList ++ text).drop 4 = text := rfl
  rw [namedSource, word, behind, clause, List.drop_one, List.tail_cons, named]

/-- The requests that can be seen to be met. -/
structure Request.IsPlain (request : Request) : Prop where
  source : IsNamable request.source.toList
  default : ∀ name, request.default = some name →
    IsBindable name.toList ∧ isWord (name.toList.getLast?.getD ' ') = true
  whole : ∀ name, request.whole = some name → IsBindable name.toList
  named : ∀ name ∈ request.named, IsListable name.toList

/-- The names of a plain request can be listed. -/
theorem Request.IsPlain.listable (plain : request.IsPlain) :
    ∀ name ∈ request.named.map String.toList, IsListable name :=
  List.forall_mem_map.mpr plain.named

/-- The names of a request are read from its list. -/
theorem Request.present_list (plain : request.IsPlain) :
    request.list.present = request.named.map String.toList :=
  @NameList.present_spaced request.list _ fun name member => (plain.listable name member).isName

/-- The list of a request names its source and no other. -/
theorem Request.isListOf_list_iff (plain : request.IsPlain) (namable : IsNamable source) :
    request.list.IsListOf source ↔ source = request.source.toList := by
  have ends : (tailPattern request.source.toList).matchesAll request.list.tail = true := by
    rw [Pattern.matchesAll_iff]
    simp only [tailPattern, evenlyQuoted, statementEnd, Pattern.mem_all_cons_iff, Pattern.mem_all_nil_iff,
      Pattern.mem_word_iff, Pattern.anyBlanks, Pattern.blanks, Pattern.mem_many_iff, Pattern.mem_some_iff,
      Pattern.mem_either_iff, Pattern.mem_literal_iff, Pattern.mem_optional_iff]
    have clause : '\'' :: (request.source.toList ++ "';".toList)
        = '\'' :: request.source.toList ++ ['\''] ++ [';'] := by simp
    have blank : ∀ c ∈ [' '], isBlank c = true := List.forall_mem_singleton.mpr (by decide)
    exact ⟨_, ⟨[' '], blank, rfl⟩, _, rfl, _, ⟨[' '], by simp, blank, rfl⟩, _, .inl clause, _,
      ⟨_, ⟨[], by simp, rfl⟩, _, .inl rfl, _, ⟨[], by simp, rfl⟩, rfl⟩, rfl⟩
  constructor
  · intro listed
    rw [← namedSource_of_matchesAll namable listed.ends, namedSource_of_matchesAll plain.source ends]
  · rintro rfl
    have opening : '\x7b' ∉ "import ".toList := by decide
    have leads : leadPattern.matchesAll "import ".toList = true := by decide +kernel
    exact ⟨opening, notMem_spaced (by decide)
      fun name among inside => ((plain.listable name among).plain _ inside).1 rfl, leads, ends⟩

/-- The statement that imports the names of a request is read as its list, for its source only. -/
theorem Request.read?_statement (plain : request.IsPlain) (namable : IsNamable source) :
    NameList.read? source (namedStatement request.named request.source).toList
      = if request.source.toList = source then some request.list else none := by
  have own := (Request.isListOf_list_iff plain plain.source).mpr rfl
  rw [Request.written_list]
  split
  · next same => exact own.read?_written_iff.mpr ⟨rfl, same ▸ own⟩
  · next different =>
    refine Option.eq_none_iff_forall_ne_some.mpr fun list read => different ?_
    exact ((Request.isListOf_list_iff plain namable).mp (own.read?_written_iff.mp read).2).symm

/-- The statement that imports the names of a request is a single line. -/
theorem Request.isLineEnd_statement (plain : request.IsPlain) :
    ∀ c ∈ (namedStatement request.named request.source).toList, isLineEnd c = false := by
  rw [Request.written_list]
  simp only [Request.written_list_eq, List.forall_mem_append, List.forall_mem_cons]
  refine ⟨unbroken_of_all rfl, rfl, ?_, rfl, unbroken_of_all rfl, ?_, unbroken_of_all rfl⟩
  · exact forall_mem_spaced (by decide) (by decide)
      fun name among c inside => ((plain.listable name among).plain c inside).2.2
  · exact fun c member => (plain.source c member).2.1

/-! ## One request -/

/-- What a request wishes for besides names. -/
def Request.wishes (request : Request) : List Wish :=
  (request.default.map fun name => Wish.default name request.source).toList
    ++ (request.whole.map fun name => Wish.whole name request.source).toList
    ++ if request.default.isNone && request.whole.isNone && request.named.isEmpty then [.any request.source] else []

/-- The wishes of a plain request are plain. -/
theorem Request.isPlain_of_mem_wishes (plain : request.IsPlain) {wish : Wish} (member : wish ∈ request.wishes) :
    wish.IsPlain := by
  rw [Request.wishes, List.mem_append, List.mem_append] at member
  rcases member with (default | whole) | any
  · obtain ⟨name, given, rfl⟩ := Option.map_eq_some_iff.mp (Option.mem_toList.mp default)
    exact ⟨(plain.default name given).1, (plain.default name given).2, plain.source⟩
  · obtain ⟨name, given, rfl⟩ := Option.map_eq_some_iff.mp (Option.mem_toList.mp whole)
    exact ⟨plain.whole name given, plain.source⟩
  · split at any
    · rw [List.mem_singleton.mp any]
      exact plain.source
    · cases any

/-- The statement that a content needs for the names of a request. -/
def Request.listing (request : Request) (content : List Char) : List String :=
  if request.named.isEmpty || (firstList? request.source.toList content).isSome then []
  else [namedStatement request.named request.source]

/-- Names are added somewhere if the content lists some. -/
theorem isSome_extendFirst? (source content : List Char) (wanted : List (List Char)) :
    (extendFirst? source wanted (linesWithEnds content)).isSome = (firstList? source content).isSome := by
  rw [Bool.eq_iff_iff, ← not_iff_not, Bool.not_eq_true, Bool.not_eq_true, Option.isSome_eq_false_iff,
    Option.isSome_eq_false_iff, Option.isNone_iff_eq_none, Option.isNone_iff_eq_none, extendFirst?_eq_none_iff,
    firstList?, List.findSome?_eq_none_iff]

/-- The statement for a name that is given and not met. -/
theorem filter_toList (wish : String → Wish) (given : Option String) (content : List Char) :
    ((given.map wish).toList.filter fun wish => !wish.met content).map Wish.statement
      = match given with
        | some name => if (wish name).met content then [] else [(wish name).statement]
        | none => [] := by
  cases given with
  | none => rfl
  | some name =>
      cases met : (wish name).met content <;> simp [met]

/-- The statements that a request brings: those for the wishes that are not met and the one that lists names. -/
theorem Request.apply_statements (request : Request) (content : List Char) :
    (request.apply content).2
      = (request.wishes.filter fun wish => !wish.met content).map Wish.statement ++ request.listing content := by
  obtain ⟨source, default, whole, named⟩ := request
  have forDefault := filter_toList (Wish.default · source) default content
  have forWhole := filter_toList (Wish.whole · source) whole content
  have listed := isSome_extendFirst? source.toList content (named.map String.toList)
  simp only [Request.wishes, Request.listing, List.filter_append, List.map_append, forDefault, forWhole,
    ← listed]
  cases named with
  | nil =>
      -- A request that asks for nothing else wishes for the source.
      simp only [Request.apply, List.isEmpty_nil, ↓reduceIte, Bool.and_true, Bool.true_or, List.append_nil]
      refine congrArg₂ (· ++ ·) rfl ?_
      split
      · cases met : (Wish.any source).met content <;> simp_all [Wish.met, Wish.statement]
      · rfl
  | cons name named =>
      -- A statement lists the names where no line does.
      simp only [Request.apply, List.isEmpty_cons, Bool.and_false, Bool.false_or, Bool.false_eq_true,
        ↓reduceIte, List.append_nil, List.filter_nil, List.map_nil]
      refine congrArg₂ (· ++ ·) rfl ?_
      cases extendFirst? source.toList ((name :: named).map String.toList) (linesWithEnds content) <;> rfl

/-- A request leaves a content as it is, or its names are added to a list there. -/
theorem Request.apply_eq_or (request : Request) (content : List Char) : (request.apply content).1 = content
    ∨ ∃ front list back, content = front ++ (NameList.written list ++ back)
      ∧ (request.apply content).1 = front ++ ((list.extended (request.named.map String.toList)).written ++ back) := by
  by_cases empty : request.named = []
  · exact .inl (by simp [Request.apply, empty])
  cases found : extendFirst? request.source.toList (request.named.map String.toList) (linesWithEnds content) with
  | none => exact .inl (by simp [Request.apply, empty, found])
  | some edited =>
      have changed : (request.apply content).1 = edited.flatten := by simp [Request.apply, empty, found]
      obtain ⟨before, line, after, list, whole, _, read, ended⟩ := exists_of_extendFirst? found
      rw [changed]
      rcases ended with ⟨_, rfl⟩ | rfl
      · exact .inl (flatten_linesWithEnds content)
      · refine .inr ⟨before.flatten, list, endOf line ++ after.flatten, ?_, by simp⟩
        have flat := flatten_linesWithEnds content
        rw [whole, List.flatten_append, List.flatten_cons, NameList.eq_written_append read, List.append_assoc] at flat
        exact flat.symm

/-- A request changes a plain content only by adding its names, and then the content lists them if it lists any. -/
theorem Request.apply_content (plain : request.IsPlain) (lines : HasPlainLines content) :
    Extends (request.named.map String.toList) content (request.apply content).1
      ∧ HasPlainLines (request.apply content).1
      ∧ ∀ list, firstList? request.source.toList (request.apply content).1 = some list →
        ∀ name ∈ request.named, name.toList ∈ list.present := by
  by_cases empty : request.named = []
  · have same : (request.apply content).1 = content := by simp [Request.apply, empty]
    rw [same, empty]
    exact ⟨.same, lines, by simp⟩
  cases found : extendFirst? request.source.toList (request.named.map String.toList) (linesWithEnds content) with
  | none =>
      have same : (request.apply content).1 = content := by simp [Request.apply, empty, found]
      have unlisted := isSome_extendFirst? request.source.toList content (request.named.map String.toList)
      rw [found] at unlisted
      rw [same]
      refine ⟨.same, lines, fun list listed => ?_⟩
      rw [listed] at unlisted
      cases unlisted
  | some edited =>
      have changed : (request.apply content).1 = edited.flatten := by simp [Request.apply, empty, found]
      obtain ⟨more, plainLines, list, first, present⟩ := extendFirst?_plain lines plain.listable found
      rw [changed]
      refine ⟨more, plainLines, fun other listed name member => ?_⟩
      obtain rfl : list = other := Option.some.inj (first.symm.trans listed)
      exact present _ (List.mem_map_of_mem member)

/-! ## New statements -/

/-- What is found among the statements so far is found first. -/
theorem findSome?_addNew {Found : Type} (find : String → Option Found) (pending statements : List String) :
    (addNew pending statements).findSome? find = (pending.findSome? find).or (statements.findSome? find) := by
  induction statements generalizing pending with
  | nil => simp [addNew]
  | cons statement rest inductionHypothesis =>
      have parted : (statement :: rest).findSome? find = (find statement).or (rest.findSome? find) :=
        findSome?_append_cons find [] statement rest
      rw [addNew, List.foldl_cons, ← addNew, inductionHypothesis, parted, ← Option.or_assoc]
      congr 1
      split
      · next known =>
        cases found : pending.findSome? find with
        | some _ => rfl
        | none =>
            have unread := List.findSome?_eq_none_iff.mp found statement (List.contains_iff_mem.mp known)
            rw [unread]
            rfl
      · rw [List.findSome?_append, List.findSome?_singleton]

/-- The statements are those so far and the new ones. -/
theorem mem_addNew {pending statements : List String} {statement : String} :
    statement ∈ addNew pending statements ↔ statement ∈ pending ∨ statement ∈ statements := by
  induction statements generalizing pending with
  | nil => simp [addNew]
  | cons first rest inductionHypothesis =>
      rw [addNew, List.foldl_cons, ← addNew, inductionHypothesis, List.mem_cons, ← or_assoc]
      refine or_congr_left ?_
      split
      · next known =>
        refine ⟨.inl, fun either => either.elim id ?_⟩
        rintro rfl
        exact List.contains_iff_mem.mp known
      · rw [List.mem_append, List.mem_singleton]

/-! ## All requests -/

/-- The content and the statements after one more request. -/
def advance (state : List Char × List String) (request : Request) : List Char × List String :=
  ((request.apply state.1).1, addNew state.2 (request.apply state.1).2)

/-- The first request that names something of a source. -/
def firstNaming? (source : List Char) (requests : List Request) : Option Request :=
  requests.find? fun request => request.source.toList == source && !request.named.isEmpty

/-- What requests make of a plain content and the statements so far. -/
structure Advances (content : List Char) (pending : List String) (requests : List Request) (changed : List Char)
    (statements : List String) : Prop where
  lines : HasPlainLines changed
  longer : ∀ source, Longer (firstList? source content) (firstList? source changed)
  kept : ∀ wish : Wish, wish.IsPlain → wish.met content = true → wish.met changed = true
  remembers : ∀ statement ∈ pending, statement ∈ statements
  single : ∀ statement ∈ statements, statement ∈ pending ∨ ∀ c ∈ statement.toList, isLineEnd c = false
  wishes : ∀ request ∈ requests, ∀ wish ∈ request.wishes, wish.met changed = true ∨ wish.statement ∈ statements
  named : ∀ request ∈ requests, ∀ list, firstList? request.source.toList changed = some list →
    ∀ name ∈ request.named, name.toList ∈ list.present
  listing : ∀ source, IsNamable source →
    statements.findSome? (fun statement => NameList.read? source statement.toList)
      = (pending.findSome? fun statement => NameList.read? source statement.toList).or
        (if (firstList? source content).isSome then none else (firstNaming? source requests).map Request.list)

/-- No request changes nothing. -/
theorem Advances.refl (lines : HasPlainLines content) (pending : List String) :
    Advances content pending [] content pending where
  lines := lines
  longer source := .refl _
  kept _ _ met := met
  remembers _ member := member
  single _ member := .inl member
  wishes := by simp
  named := by simp
  listing source _ := by simp [firstNaming?]

/-- What the statement for the names of a request is read as. -/
theorem Request.findSome?_listing (plain : request.IsPlain) (namable : IsNamable source) (content : List Char) :
    (request.listing content).findSome? (fun statement => NameList.read? source statement.toList)
      = if (firstList? source content).isSome then none else (firstNaming? source [request]).map Request.list := by
  have read := Request.read?_statement plain namable
  rw [Request.listing, firstNaming?]
  by_cases same : request.source.toList = source
  · subst same
    cases listed : firstList? request.source.toList content <;> cases unnamed : request.named.isEmpty <;>
      simp [read, unnamed]
  · split <;> simp [read, same]

/-- One request. -/
theorem advances_advance (plain : request.IsPlain) (lines : HasPlainLines content) (pending : List String) :
    Advances content pending [request] (advance (content, pending) request).1
      (advance (content, pending) request).2 := by
  obtain ⟨more, plainLines, present⟩ := request.apply_content plain lines
  have brought := request.apply_statements content
  refine ⟨plainLines, more.longer plain.listable, fun wish isPlain => wish.met_extends isPlain plain.listable more,
    fun statement member => mem_addNew.mpr (.inl member), fun statement member => ?_, ?_, ?_,
    fun source namable => ?_⟩
  · refine (mem_addNew.mp member).imp_right fun new => ?_
    rw [brought, List.mem_append, List.mem_map] at new
    rcases new with ⟨wish, unmet, rfl⟩ | listing
    · have isPlain := Request.isPlain_of_mem_wishes plain (List.mem_filter.mp unmet).1
      exact fun c inside => (Wish.mem_statement isPlain c inside).1
    · rw [Request.listing] at listing
      split at listing
      · cases listing
      · rw [List.mem_singleton.mp listing]
        exact Request.isLineEnd_statement plain
  · rw [List.forall_mem_singleton]
    intro wish member
    cases met : wish.met content with
    | true =>
        have isPlain := Request.isPlain_of_mem_wishes plain member
        exact .inl (wish.met_extends isPlain plain.listable more met)
    | false =>
        refine .inr (mem_addNew.mpr (.inr ?_))
        rw [brought]
        exact List.mem_append_left _ (List.mem_map_of_mem (List.mem_filter.mpr ⟨member, by simp [met]⟩))
  · rw [List.forall_mem_singleton]
    exact present
  · have unread : ((request.wishes.filter fun wish => !wish.met content).map Wish.statement).findSome?
        (fun statement => NameList.read? source statement.toList) = none := by
      rw [List.findSome?_eq_none_iff, List.forall_mem_map]
      exact fun wish unmet =>
        Wish.read?_statement (Request.isPlain_of_mem_wishes plain (List.mem_filter.mp unmet).1) source
    rw [advance, findSome?_addNew, brought, List.findSome?_append, unread, Option.none_or,
      Request.findSome?_listing plain namable]

/-- Lists are listed before and after. -/
theorem Longer.isSome_eq {first second : Option NameList} (longer : Longer first second) :
    second.isSome = first.isSome := by
  cases first with
  | none => rw [show second = none from longer]
  | some list =>
      obtain ⟨more, rfl, _⟩ := longer
      rfl

/-- Requests after others. -/
theorem Advances.trans {between : List Char} {early late : List Request} {pending statements later : List String}
    (plain : ∀ request ∈ early, request.IsPlain)
    (first : Advances content pending early between statements)
    (second : Advances between statements late changed later) :
    Advances content pending (early ++ late) changed later where
  lines := second.lines
  longer source := (first.longer source).trans (second.longer source)
  kept wish isPlain met := second.kept wish isPlain (first.kept wish isPlain met)
  remembers statement member := second.remembers statement (first.remembers statement member)
  single statement member := (second.single statement member).elim (first.single statement) .inr
  wishes := by
    refine List.forall_mem_append.mpr ⟨fun request member wish among => ?_, second.wishes⟩
    exact (first.wishes request member wish among).imp
      (second.kept wish (Request.isPlain_of_mem_wishes (plain request member) among)) (second.remembers _)
  named := by
    refine List.forall_mem_append.mpr ⟨fun request member list listed name among => ?_, second.named⟩
    have longer := second.longer request.source.toList
    cases earlier : firstList? request.source.toList between with
    | none =>
        rw [earlier, listed] at longer
        cases longer
    | some shorter =>
        rw [earlier, listed] at longer
        obtain ⟨_, same, kept⟩ := longer
        obtain rfl := Option.some.inj same
        exact kept _ (first.named request member shorter earlier name among)
  listing source namable := by
    have parted : firstNaming? source (early ++ late)
        = (firstNaming? source early).or (firstNaming? source late) := List.find?_append
    rw [second.listing source namable, first.listing source namable, (first.longer source).isSome_eq,
      Option.or_assoc, parted]
    split
    · rfl
    · rw [Option.map_or]

/-- All requests in order. -/
theorem advances_foldl (plain : ∀ request ∈ requests, request.IsPlain) (lines : HasPlainLines content)
    (pending : List String) :
    Advances content pending requests (requests.foldl advance (content, pending)).1
      (requests.foldl advance (content, pending)).2 := by
  induction requests generalizing content pending with
  | nil => exact .refl lines pending
  | cons request requests inductionHypothesis =>
      obtain ⟨isPlain, others⟩ := List.forall_mem_cons.mp plain
      have first := advances_advance isPlain lines pending
      exact first.trans (by simpa using isPlain) (inductionHypothesis others first.lines _)

end Scaffold.ImportAdd
