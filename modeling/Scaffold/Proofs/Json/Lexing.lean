import Scaffold.Proofs.Json.Number
import Scaffold.Json.Printer
import Scaffold.Json.Reader
import Mathlib.Tactic.IntervalCases

/-!
# The tokens of a printed value

The printer and the lexical layer agree on where a token ends: a printed value is split into the tokens
that spell it (`Lexes.list`, `Lexes.mapping`), whatever follows, as long as that cannot continue a number.
Each character of a text is read back from its escaped form, and so are all of them up to the closing quote
(`readText_flatMap`).
-/

namespace Scaffold.Json

/-! ## Escaped texts -/

variable {c : Char} {rest : List Char}

/-- A code in four digits is read as what it names, if anything follows and the code is not the first half of
another one. -/
theorem readText_code {first second third fourth : Char} {code : Nat}
    (digits : code? first second third fourth = some code) (single : isHighHalf code = false)
    (closed : rest ≠ []) :
    readText ('\\' :: 'u' :: first :: second :: third :: fourth :: rest)
      = (readText rest).cons (pieceOfCode code) := by
  obtain ⟨next, others, rfl⟩ := List.exists_cons_of_ne_nil closed
  rw [readText.eq_def]
  split
  -- Another code follows, or anything else.
  case h_4 same =>
    simp only [List.cons.injEq, true_and] at same
    obtain ⟨rfl, rfl, rfl, rfl, rfl, rfl⟩ := same
    simp [digits, single]
  case h_5 same =>
    simp only [List.cons.injEq, true_and] at same
    obtain ⟨rfl, rfl, rfl, rfl, rfl, rfl⟩ := same
    simp only [digits]
  all_goals grind

/-- A letter behind a backslash is read as the character it stands for. -/
theorem readText_short {letter meant : Char} (short : shortEscape? letter = some meant)
    (rest : List Char) : readText ('\\' :: letter :: rest) = (readText rest).cons (.whole meant) := by
  have notCode : letter ≠ 'u' := by
    rintro rfl
    cases short
  rw [readText.eq_def]
  split
  case h_6 same =>
    simp only [List.cons.injEq, true_and] at same
    obtain ⟨rfl, rfl⟩ := same
    simp [notCode, short]
  all_goals grind

/-- Any other character is read as itself. -/
theorem readText_plain (quote : c ≠ '"') (backslash : c ≠ '\\') (control : ¬c.toNat < 0x20)
    (rest : List Char) : readText (c :: rest) = (readText rest).cons (.whole c) := by
  rw [readText.eq_def]
  split
  case h_7 same =>
    obtain ⟨rfl, rfl⟩ := List.cons.inj same
    rw [if_neg control]
  all_goals grind

/-- The four digits of a control character write its code. -/
theorem code?_hexDigits {code : Nat} (small : code < 0x20) :
    ∃ first second third fourth, Text.hexDigits 4 code = [first, second, third, fourth]
      ∧ code? first second third fourth = some code := by
  interval_cases code <;> exact ⟨_, _, _, _, rfl, rfl⟩

/-- The escaped form of a character is read as the character. -/
theorem readText_escapeChar (c : Char) (closed : rest ≠ []) :
    readText (escapeChar c ++ rest) = (readText rest).cons (.whole c) := by
  fun_cases escapeChar c with
  | case8 _ _ _ _ _ _ _ control =>
      obtain ⟨first, second, third, fourth, split, digits⟩ := code?_hexDigits control
      have single : isHighHalf c.toNat = false := by
        unfold isHighHalf
        simp
        omega
      have meant : pieceOfCode c.toNat = .whole c := by
        rw [pieceOfCode, dif_neg (by omega), Char.ofNat_toNat]
      rw [split]
      exact (readText_code digits single closed).trans (by rw [meant])
  | case9 quote backslash _ _ _ _ _ control =>
      exact readText_plain (by simpa using quote) (by simpa using backslash) control rest
  | case1 same | case2 _ same | case3 _ _ same | case4 _ _ _ same | case5 _ _ _ _ same
  | case6 _ _ _ _ _ same | case7 _ _ _ _ _ _ same =>
      rw [beq_iff_eq.mp same]
      exact readText_short (by decide) rest

/-- A text is read back up to its closing quote. -/
theorem readText_flatMap (text rest : List Char) :
    readText (text.flatMap escapeChar ++ '"' :: rest) = .ok (text.map Piece.whole, rest) := by
  induction text with
  | nil => rfl
  | cons c text inductionHypothesis =>
      rw [List.flatMap_cons, List.append_assoc, readText_escapeChar c (by simp), inductionHypothesis]
      rfl

end Scaffold.Json

/-! ## Tokens -/

namespace Scaffold.Json

open Scaffold.Decimal

/-- The token of a scalar that a document can hold. -/
def tokenOf : Scalar → Token
  | .text content => .text content
  | content => .scalar content

variable {content : Scalar} {first : Char} {others rest : List Char}

/-- No word starts like a number. -/
theorem isDigit_of_mem_words {word : List Char × Scalar} (member : word ∈ words) :
    2 < word.1.length ∧ ∀ c ∈ word.1.take 2, isDigit c = false := by
  have all : (words.all fun word => decide (2 < word.1.length)
      && (word.1.take 2).all fun c => !isDigit c) = true := by decide
  have this := List.all_eq_true.mp all word member
  rw [Bool.and_eq_true, decide_eq_true_eq, List.all_eq_true] at this
  exact ⟨this.1, fun c inside => by simpa using this.2 c inside⟩

/-- A text with a digit among its first two characters starts with no word. -/
theorem find?_words (text : List Char) (numeric : ∃ c ∈ text.take 2, isDigit c) :
    (words.find? fun word => word.1.isPrefixOf text) = none := by
  rw [List.find?_eq_none]
  intro word member starts
  obtain ⟨long, letters⟩ := isDigit_of_mem_words member
  obtain ⟨c, inside, digit⟩ := numeric
  obtain ⟨tail, rfl⟩ := List.isPrefixOf_iff_prefix.mp starts
  rw [List.take_append_of_le_length (by omega)] at inside
  rw [letters c inside] at digit
  cases digit

/-- A digit starts a number. -/
theorem readToken_digit (digit : isDigit first) :
    readToken first rest = (readNumber false (first :: rest)).getD (.unknown, []) := by
  have noWord := find?_words (first :: rest) ⟨first, by simp, digit⟩
  rw [readToken.eq_def]
  split
  all_goals try (exact absurd digit (by decide))
  rw [noWord]
  dsimp only
  rw [if_neg]
  rintro minus
  rw [beq_iff_eq.mp minus] at digit
  exact absurd digit (by decide)

/-- A minus sign before a digit starts a negative number. -/
theorem readToken_minus (digit : isDigit first) :
    readToken '-' (first :: rest) = (readNumber true (first :: rest)).getD (.unknown, []) := by
  have noWord := find?_words ('-' :: first :: rest) ⟨first, by simp, digit⟩
  simp [readToken, noWord]

/-- A number starts with a digit. -/
theorem isDigit_of_readNumber {negative : Bool} {text : List Char} {found : Token × List Char}
    (read : readNumber negative text = some found) :
    ∃ first others, text = first :: others ∧ isDigit first := by
  have nonempty : (readWhole text).1 ≠ [] := by
    intro empty
    simp [readNumber, empty] at read
  unfold readWhole at nonempty
  split at nonempty
  next others => exact ⟨'0', others, rfl, by decide⟩
  next =>
    cases text with
    | nil => exact absurd rfl nonempty
    | cons first others =>
        refine ⟨first, others, rfl, ?_⟩
        by_contra other
        exact nonempty (List.takeWhile_cons_of_neg other)

/-- A number behind its sign is read back as a token. -/
theorem readToken_number {digits : List Char} {negative : Bool} {token : Token}
    (delimited : Delimits rest) (read : readNumber negative (digits ++ rest) = some (token, rest)) :
    ∃ first others, (if negative then ['-'] else []) ++ digits = first :: others
      ∧ isSpace first = false ∧ readToken first (others ++ rest) = (token, rest) := by
  obtain ⟨first, after, split, start⟩ := isDigit_of_readNumber read
  obtain ⟨others, rfl⟩ : ∃ others, digits = first :: others := by
    cases digits with
    | nil =>
        have other := (delimited first (by rw [← List.nil_append rest, split]; rfl)).1
        rw [start] at other
        cases other
    | cons head tail => exact ⟨tail, by rw [(List.cons.inj split).1]⟩
  cases negative with
  | true =>
      refine ⟨'-', first :: others, rfl, by decide, ?_⟩
      rw [List.cons_append, readToken_minus start, ← List.cons_append, read]
      rfl
  | false =>
      refine ⟨first, others, rfl, ?_, ?_⟩
      · unfold isSpace
        by_contra space
        simp only [Bool.not_eq_false, Bool.or_eq_true, beq_iff_eq] at space
        rcases space with ((rfl | rfl) | rfl) | rfl <;> exact absurd start (by decide)
      · rw [readToken_digit start, ← List.cons_append, read]
        rfl

/-- The digits of an integer are read back as its token. -/
theorem readToken_int {value : Int} (short : isLong value = false) (delimited : Delimits rest) :
    ∃ first others, (intText value).toList = first :: others
      ∧ isSpace first = false ∧ readToken first (others ++ rest) = (.scalar (.int value), rest) := by
  have shortText : ∀ size, value.natAbs = size → (natText size).length ≤ maxDigits := by
    rintro size rfl
    rw [length_natText_le_iff (by decide)]
    exact isLong_eq_false_iff.mp short
  cases value with
  | ofNat size =>
      have read := readNumber_natText false size (shortText size rfl) delimited
      simpa [intText] using readToken_number delimited read
  | negSucc below =>
      have read := readNumber_natText true (below + 1) (shortText _ rfl) delimited
      simpa [intText, Int.negSucc_eq] using readToken_number delimited read

/-- A double precision number is read back as its token. -/
theorem readToken_float (value : Binary64) (delimited : Delimits rest) :
    ∃ first others, (FloatNotation.json.write value).toList = first :: others
      ∧ isSpace first = false ∧ readToken first (others ++ rest) = (.scalar (.float value), rest) := by
  cases value with
  | nan => exact ⟨'N', ['a', 'N'], by decide, by decide, rfl⟩
  | infinite negative =>
      cases negative with
      | true => exact ⟨'-', "Infinity".toList, by decide, by decide, rfl⟩
      | false => exact ⟨'I', "nfinity".toList, by decide, by decide, rfl⟩
  | finite negative rank =>
      have read := readNumber_magnitude negative .json rank.isLt delimited
      have number : Binary64.ofRank negative rank = .finite negative rank := by
        simp [Binary64.ofRank]
      rw [number] at read
      simpa [FloatNotation.write] using readToken_number delimited read

/-- A text is read back as its token. -/
theorem readToken_printText (name : String) (rest : List Char) :
    ∃ others, printText name = '"' :: others ∧ readToken '"' (others ++ rest) = (.text name, rest) := by
  refine ⟨name.toList.flatMap escapeChar ++ ['"'], rfl, ?_⟩
  have read := readText_flatMap name.toList rest
  rw [readToken, List.append_assoc, List.singleton_append, read]
  simp

/-- A scalar of a document is read back as its token. -/
theorem readToken_printScalar (plain : IsPlain content) (delimited : Delimits rest) :
    ∃ first others, printScalar content = first :: others
      ∧ isSpace first = false ∧ readToken first (others ++ rest) = (tokenOf content, rest) := by
  cases content with
  | null => exact ⟨'n', ['u', 'l', 'l'], by decide, by decide, rfl⟩
  | bool value =>
      cases value with
      | true => exact ⟨'t', ['r', 'u', 'e'], by decide, by decide, rfl⟩
      | false => exact ⟨'f', ['a', 'l', 's', 'e'], by decide, by decide, rfl⟩
  | int value => exact readToken_int plain delimited
  | float value => exact readToken_float value delimited
  | text name =>
      obtain ⟨others, split, read⟩ := readToken_printText name rest
      exact ⟨'"', others, split, by decide, read⟩
  | torn value => exact plain.elim
  | moment value => exact plain.elim

/-! ## Sequences of tokens -/

/-- The tokens of a text without their places. -/
def kinds (text : List Char) : List Token := (tokens text).map (·.token)

/-- A token behind spaces comes before the tokens of what follows it. -/
theorem kinds_token {gap : List Char} {token : Token} (blank : ∀ c ∈ gap, isSpace c)
    (visible : isSpace first = false) (read : readToken first (others ++ rest) = (token, rest)) :
    kinds (gap ++ first :: others ++ rest) = token :: kinds rest := by
  have start : (gap ++ first :: others ++ rest).dropWhile isSpace = first :: (others ++ rest) := by
    rw [List.append_assoc, List.dropWhile_append_of_pos blank, List.cons_append,
      List.dropWhile_cons_of_neg (by simp [visible])]
  have shorter : rest.length < (gap ++ first :: others ++ rest).length := by
    simp
    omega
  unfold kinds
  rw [tokens, start]
  simp only [read, if_pos shorter, List.map_cons]

/-- A character that is a token of its own, whatever follows it. -/
structure Marks (first : Char) (token : Token) : Prop where
  visible : isSpace first = false
  read : ∀ rest, readToken first rest = (token, rest)

/-- A mark behind spaces comes before the tokens of what follows it. -/
theorem Marks.kinds_gap {gap : List Char} {token : Token} (marks : Marks first token)
    (blank : ∀ c ∈ gap, isSpace c) (rest : List Char) :
    kinds (gap ++ first :: rest) = token :: kinds rest := by
  have read : readToken first ([] ++ rest) = (token, rest) := marks.read rest
  simpa using kinds_token blank marks.visible read

/-- A mark comes before the tokens of what follows it. -/
theorem Marks.kinds {token : Token} (marks : Marks first token) (rest : List Char) :
    Json.kinds (first :: rest) = token :: Json.kinds rest := by
  have nothing : ∀ c ∈ ([] : List Char), isSpace c := nofun
  exact marks.kinds_gap nothing rest

/-- The comma is a mark. -/
theorem marks_comma : Marks ',' .comma := ⟨by decide, fun _ => rfl⟩

/-- The colon is a mark. -/
theorem marks_colon : Marks ':' .colon := ⟨by decide, fun _ => rfl⟩

mutual

/-- The tokens that spell a value. -/
def spelled : Value → List Token
  | .scalar content => [tokenOf content]
  | .list [] => [.openList, .closeList]
  | .list (item :: rest) => .openList :: spelled item ++ spelledItems rest ++ [.closeList]
  | .mapping [] => [.openMapping, .closeMapping]
  | .mapping ((key, value) :: rest) =>
    .openMapping :: tokenOf key :: .colon :: spelled value ++ spelledEntries rest ++ [.closeMapping]
termination_by structural value => value

/-- The tokens of the items after the first. -/
def spelledItems : List Value → List Token
  | [] => []
  | item :: rest => .comma :: spelled item ++ spelledItems rest
termination_by structural items => items

/-- The tokens of the entries after the first. -/
def spelledEntries : List (Scalar × Value) → List Token
  | [] => []
  | (key, value) :: rest =>
    .comma :: tokenOf key :: .colon :: spelled value ++ spelledEntries rest
termination_by structural entries => entries

end

/-- The separators of a layout are a comma and a colon, with nothing but spaces behind them. -/
structure Layout.Separates (layout : Layout) : Prop where
  items : ∃ gap, layout.itemSeparator = ',' :: gap ∧ ∀ c ∈ gap, isSpace c
  keys : ∃ gap, layout.keySeparator = ':' :: gap ∧ ∀ c ∈ gap, isSpace c

/-- The layout with a line for every item has such separators. -/
theorem separates_tree : Layout.tree.Separates :=
  ⟨⟨[], rfl, List.forall_mem_nil _⟩, ⟨[' '], rfl, List.forall_mem_singleton.mpr rfl⟩⟩

/-- The start of a line is blank. -/
theorem isSpace_of_mem_newLine (layout : Layout) (depth : Nat) :
    ∀ c ∈ layout.newLine depth, isSpace c := by
  intro c member
  unfold Layout.newLine at member
  split at member
  · cases member
  · rcases List.mem_cons.mp member with rfl | inside
    · decide
    · rw [List.eq_of_mem_replicate inside]
      decide

/-- A mark cannot continue a number. -/
theorem delimits_cons (mark : isDigit first = false ∧ first ≠ '.' ∧ first ≠ 'e' ∧ first ≠ 'E')
    (rest : List Char) : Delimits (first :: rest) :=
  fun _ head => Option.some.inj head ▸ mark

/-- Spaces keep what follows them from continuing a number. -/
theorem Delimits.append {gap : List Char} (delimited : Delimits rest) (blank : ∀ c ∈ gap, isSpace c) :
    Delimits (gap ++ rest) := by
  cases gap with
  | nil => exact delimited
  | cons space gap =>
      have kind := blank space List.mem_cons_self
      simp only [isSpace, Bool.or_eq_true, beq_iff_eq] at kind
      rcases kind with ((rfl | rfl) | rfl) | rfl <;> exact delimits_cons (by decide) _

/-- A value is split into its tokens wherever it is printed. -/
def Lexes (layout : Layout) (value : Value) : Prop :=
  ∀ depth gap rest, (∀ c ∈ gap, isSpace c) → Delimits rest →
    kinds (gap ++ print layout depth value ++ rest) = spelled value ++ kinds rest

variable {layout : Layout}

/-- The items after the first are split into their tokens. -/
theorem kinds_printItems (separates : layout.Separates) {items : List Value}
    (all : ∀ item ∈ items, Lexes layout item) (depth : Nat) (delimited : Delimits rest) :
    kinds (printItems layout depth items ++ rest) = spelledItems items ++ kinds rest
      ∧ Delimits (printItems layout depth items ++ rest) := by
  obtain ⟨gap, separator, blank⟩ := separates.items
  induction items with
  | nil => exact ⟨rfl, delimited⟩
  | cons item items inductionHypothesis =>
      obtain ⟨here, others⟩ := List.forall_mem_cons.mp all
      obtain ⟨later, apart⟩ := inductionHypothesis others
      have wide : ∀ c ∈ gap ++ layout.newLine depth, isSpace c :=
        List.forall_mem_append.mpr ⟨blank, isSpace_of_mem_newLine layout depth⟩
      have split : printItems layout depth (item :: items) ++ rest
          = ',' :: (gap ++ layout.newLine depth ++ print layout depth item
            ++ (printItems layout depth items ++ rest)) := by
        simp [printItems, separator]
      rw [split]
      constructor
      · rw [marks_comma.kinds, here depth _ _ wide apart, later]
        simp [spelledItems]
      · exact delimits_cons (by decide) _

/-- A key, its separator and its value are split into their tokens. -/
theorem kinds_entry (separates : layout.Separates) (name : String) {value : Value}
    (lexes : Lexes layout value) (depth : Nat) {gap : List Char} (blank : ∀ c ∈ gap, isSpace c)
    (delimited : Delimits rest) :
    kinds (gap ++ printKey (.text name) ++ layout.keySeparator ++ print layout depth value ++ rest)
      = .text name :: .colon :: spelled value ++ kinds rest := by
  obtain ⟨space, separator, spaceBlank⟩ := separates.keys
  obtain ⟨others, quoted, read⟩ := readToken_printText name
    (':' :: (space ++ print layout depth value ++ rest))
  have split : gap ++ printKey (.text name) ++ layout.keySeparator ++ print layout depth value ++ rest
      = gap ++ '"' :: others ++ ':' :: (space ++ print layout depth value ++ rest) := by
    simp [printKey, quoted, separator]
  rw [split, kinds_token blank (by decide) read, marks_colon.kinds, lexes depth _ _ spaceBlank delimited]
  rfl

/-- The entries after the first are split into their tokens. -/
theorem kinds_printEntries (separates : layout.Separates) {entries : Entries}
    (texts : ∀ key ∈ entries.keys, ∃ name, key = .text name)
    (all : ∀ entry ∈ entries, Lexes layout entry.2) (depth : Nat) (delimited : Delimits rest) :
    kinds (printEntries layout depth entries ++ rest) = spelledEntries entries ++ kinds rest
      ∧ Delimits (printEntries layout depth entries ++ rest) := by
  obtain ⟨gap, separator, blank⟩ := separates.items
  induction entries with
  | nil => exact ⟨rfl, delimited⟩
  | cons entry entries inductionHypothesis =>
      obtain ⟨key, value⟩ := entry
      obtain ⟨here, others⟩ := List.forall_mem_cons.mp all
      obtain ⟨⟨name, rfl⟩, otherTexts⟩ := List.forall_mem_cons.mp texts
      obtain ⟨later, apart⟩ := inductionHypothesis otherTexts others
      have wide : ∀ c ∈ gap ++ layout.newLine depth, isSpace c :=
        List.forall_mem_append.mpr ⟨blank, isSpace_of_mem_newLine layout depth⟩
      have split : printEntries layout depth ((.text name, value) :: entries) ++ rest
          = ',' :: (gap ++ layout.newLine depth ++ printKey (.text name) ++ layout.keySeparator
            ++ print layout depth value ++ (printEntries layout depth entries ++ rest)) := by
        simp [printEntries, separator]
      rw [split]
      constructor
      · rw [marks_comma.kinds, kinds_entry separates name here depth wide apart, later]
        simp [spelledEntries, tokenOf]
      · exact delimits_cons (by decide) _

/-- A list is split into its tokens. -/
theorem Lexes.list (separates : layout.Separates) {items : List Value}
    (all : ∀ item ∈ items, Lexes layout item) : Lexes layout (.list items) := by
  intro depth gap rest blank delimited
  have opening : Marks '[' .openList := ⟨by decide, fun _ => rfl⟩
  have close : Marks ']' .closeList := ⟨by decide, fun _ => rfl⟩
  cases items with
  | nil =>
      have split : gap ++ print layout depth (.list []) ++ rest = gap ++ '[' :: ']' :: rest := by
        simp [print]
      rw [split, opening.kinds_gap blank, close.kinds]
      rfl
  | cons item items =>
      obtain ⟨here, others⟩ := List.forall_mem_cons.mp all
      have closed : Delimits (layout.newLine depth ++ ']' :: rest) :=
        (delimits_cons (by decide) rest).append (isSpace_of_mem_newLine layout depth)
      obtain ⟨later, apart⟩ := kinds_printItems separates others (depth + 1) closed
      have split : gap ++ print layout depth (.list (item :: items)) ++ rest
          = gap ++ '[' :: (layout.newLine (depth + 1) ++ print layout (depth + 1) item
            ++ (printItems layout (depth + 1) items ++ (layout.newLine depth ++ ']' :: rest))) := by
        simp [print]
      rw [split, opening.kinds_gap blank, here _ _ _ (isSpace_of_mem_newLine layout _) apart, later,
        close.kinds_gap (isSpace_of_mem_newLine layout depth)]
      simp [spelled]

/-- A mapping is split into its tokens. -/
theorem Lexes.mapping (separates : layout.Separates) {entries : Entries}
    (texts : ∀ key ∈ entries.keys, ∃ name, key = .text name)
    (all : ∀ entry ∈ entries, Lexes layout entry.2) : Lexes layout (.mapping entries) := by
  intro depth gap rest blank delimited
  have opening : Marks '\x7b' .openMapping := ⟨by decide, fun _ => rfl⟩
  have close : Marks '\x7d' .closeMapping := ⟨by decide, fun _ => rfl⟩
  cases entries with
  | nil =>
      have split : gap ++ print layout depth (.mapping []) ++ rest
          = gap ++ '\x7b' :: '\x7d' :: rest := by
        simp [print]
      rw [split, opening.kinds_gap blank, close.kinds]
      rfl
  | cons entry entries =>
      obtain ⟨key, value⟩ := entry
      obtain ⟨here, others⟩ := List.forall_mem_cons.mp all
      obtain ⟨⟨name, rfl⟩, otherTexts⟩ := List.forall_mem_cons.mp texts
      have closed : Delimits (layout.newLine depth ++ '\x7d' :: rest) :=
        (delimits_cons (by decide) rest).append (isSpace_of_mem_newLine layout depth)
      obtain ⟨later, apart⟩ := kinds_printEntries separates otherTexts others (depth + 1) closed
      have split : gap ++ print layout depth (.mapping ((.text name, value) :: entries)) ++ rest
          = gap ++ '\x7b' :: (layout.newLine (depth + 1) ++ printKey (.text name)
            ++ layout.keySeparator ++ print layout (depth + 1) value
            ++ (printEntries layout (depth + 1) entries
              ++ (layout.newLine depth ++ '\x7d' :: rest))) := by
        simp [print]
      rw [split, opening.kinds_gap blank, kinds_entry separates name here (depth + 1)
        (isSpace_of_mem_newLine layout _) apart, later,
        close.kinds_gap (isSpace_of_mem_newLine layout depth)]
      simp [spelled, tokenOf]

end Scaffold.Json
