import Scaffold.Text.Lines
import Scaffold.Text.Utf8
import Mathlib.Tactic.Common

/-!
# Laws of lines and bytes

Lines hold no line end, and a text is cut at its line feeds independently of what stands before and
behind them.  Unifying line ends leaves none but line feeds, and a text alone that has no others.

Bytes that store a text are found in front of, or behind, other bytes that store one only where its
characters are.
-/

namespace Scaffold.Text

/-- The characters of the first piece after a character was put in front of it. -/
theorem forall_mem_prependToFirst {holds : List Char → Prop} {c : Char} {pieces : List (List Char)}
    (alone : holds [c]) (longer : ∀ piece ∈ pieces, holds (c :: piece))
    (others : ∀ piece ∈ pieces, holds piece) : ∀ piece ∈ prependToFirst c pieces, holds piece := by
  cases pieces with
  | nil => simpa [prependToFirst] using alone
  | cons piece rest =>
      intro other member
      rcases List.mem_cons.mp member with rfl | inside
      · exact longer piece (by simp)
      · exact others other (List.mem_cons_of_mem _ inside)

/-- Putting a character in front of pieces leaves the pieces behind the first alone. -/
theorem prependToFirst_append {pieces : List (List Char)} (c : Char) (nonempty : pieces ≠ [])
    (more : List (List Char)) : prependToFirst c (pieces ++ more) = prependToFirst c pieces ++ more := by
  cases pieces with
  | nil => exact absurd rfl nonempty
  | cons piece rest => rfl

/-- A line holds no line end. -/
theorem isLineEnd_of_mem_lines (text : List Char) :
    ∀ line ∈ lines text, ∀ c ∈ line, isLineEnd c = false := by
  fun_induction lines text with
  | case1 => simp
  | case2 rest inductionHypothesis => simpa using inductionHypothesis
  | case3 c rest _ _ inductionHypothesis => simpa using inductionHypothesis
  | case4 c rest _ notEnd inductionHypothesis =>
      have plain : isLineEnd c = false := by simpa using notEnd
      apply forall_mem_prependToFirst
      · simpa using plain
      · intro piece inside other found
        rcases List.mem_cons.mp found with rfl | later
        · exact plain
        · exact inductionHypothesis piece inside other later
      · exact inductionHypothesis

/-- The characters of a line are characters of the text. -/
theorem mem_of_mem_lines (text : List Char) : ∀ line ∈ lines text, ∀ c ∈ line, c ∈ text := by
  fun_induction lines text with
  | case1 => simp
  | case2 rest inductionHypothesis =>
      simp only [List.forall_mem_cons, List.not_mem_nil, false_implies, implies_true, true_and]
      exact fun line member c inside => .tail _ (.tail _ (inductionHypothesis line member c inside))
  | case3 c rest _ _ inductionHypothesis =>
      simp only [List.forall_mem_cons, List.not_mem_nil, false_implies, implies_true, true_and]
      exact fun line member c inside => .tail _ (inductionHypothesis line member c inside)
  | case4 c rest _ _ inductionHypothesis =>
      have later : ∀ line ∈ lines rest, ∀ other ∈ line, other ∈ c :: rest :=
        fun line member other inside => .tail _ (inductionHypothesis line member other inside)
      refine forall_mem_prependToFirst (by simp) (fun piece member other inside => ?_) later
      rcases List.mem_cons.mp inside with rfl | inside
      · exact .head _
      · exact later piece member other inside

/-- A character that does not start a pair of carriage return and line feed ends a line or belongs to
the first one. -/
theorem lines_cons {c : Char} {rest : List Char} (single : c = '\r' → ∀ more, rest ≠ '\n' :: more) :
    lines (c :: rest) =
      if isLineEnd c then [] :: lines rest else prependToFirst c (lines rest) := by
  rw [lines.eq_def]
  split
  · rename_i impossible
    cases impossible
  · rename_i pair
    injection pair with isReturn isFeed
    exact absurd isFeed (single isReturn _)
  · rename_i other more _ same
    injection same with head tail
    rw [head, tail]

/-- A character that ends no line belongs to the first line. -/
theorem lines_plain {c : Char} (plain : isLineEnd c = false) (rest : List Char) :
    lines (c :: rest) = prependToFirst c (lines rest) := by
  have notReturn : c ≠ '\r' := by
    rintro rfl
    exact absurd plain (by decide)
  rw [lines_cons fun same => absurd same notReturn, plain]
  rfl

/-- A line end that starts no pair ends an empty line. -/
theorem lines_end {c : Char} {rest : List Char} (ended : isLineEnd c = true)
    (single : c = '\r' → ∀ more, rest ≠ '\n' :: more) : lines (c :: rest) = [] :: lines rest := by
  rw [lines_cons single, ended]
  rfl

/-- A line feed ends a line. -/
theorem lines_newline (rest : List Char) : lines ('\n' :: rest) = [] :: lines rest := rfl

/-- A text has no lines only if it is empty. -/
theorem lines_ne_nil {text : List Char} (nonempty : text ≠ []) : lines text ≠ [] := by
  fun_induction lines text with
  | case1 => exact absurd rfl nonempty
  | case2 rest => simp
  | case3 c rest => simp
  | case4 c rest => cases lines rest <;> simp [prependToFirst]

/-- A text without line ends is a line if a line feed follows. -/
theorem lines_line_append {line : List Char} (plain : ∀ c ∈ line, isLineEnd c = false)
    (rest : List Char) : lines (line ++ '\n' :: rest) = line :: lines rest := by
  induction line with
  | nil => exact lines_newline rest
  | cons c line inductionHypothesis =>
      have others := inductionHypothesis fun other member => plain other (List.mem_cons_of_mem _ member)
      rw [List.cons_append, lines_plain (plain c (by simp)), others]
      rfl

/-- Behind a line feed a text is cut into lines for itself. -/
theorem lines_append_newline (text rest : List Char) :
    lines (text ++ '\n' :: rest) = lines (text ++ ['\n']) ++ lines rest := by
  fun_induction lines text with
  | case1 => exact lines_newline rest
  | case2 text inductionHypothesis => exact congrArg ([] :: ·) inductionHypothesis
  | case3 c text single ended inductionHypothesis =>
      cases text with
      | nil =>
          by_cases isReturn : c = '\r'
          · subst isReturn
            rfl
          · simp only [List.singleton_append, lines_end ended fun same => absurd same isReturn,
              lines_newline]
            rfl
      | cons next text =>
          have apart (tail : List Char) : c = '\r' → ∀ more, next :: (text ++ tail) ≠ '\n' :: more := by
            intro isReturn more same
            injection same with isFeed
            exact single text isReturn (by rw [isFeed])
          simp only [List.cons_append] at inductionHypothesis ⊢
          rw [lines_end ended (apart _), lines_end ended (apart _), inductionHypothesis]
          rfl
  | case4 c text single notEnd inductionHypothesis =>
      have plain : isLineEnd c = false := by simpa using notEnd
      rw [List.cons_append, List.cons_append, lines_plain plain, lines_plain plain, inductionHypothesis]
      exact prependToFirst_append c (lines_ne_nil (by simp)) _

/-- A line feed at the end completes the last line, or stands on an empty line of its own. -/
theorem lines_append_singleton (text : List Char) :
    lines (text ++ ['\n']) = lines text ∨ lines (text ++ ['\n']) = lines text ++ [[]] := by
  fun_induction lines text with
  | case1 => exact .inr rfl
  | case2 text inductionHypothesis =>
      exact inductionHypothesis.imp (congrArg ([] :: ·)) (congrArg ([] :: ·))
  | case3 c text single ended inductionHypothesis =>
      cases text with
      | nil =>
          by_cases isReturn : c = '\r'
          · subst isReturn
            exact .inl rfl
          · rw [List.singleton_append, lines_end ended fun same => absurd same isReturn, lines_newline]
            exact .inr rfl
      | cons next text =>
          have apart : c = '\r' → ∀ more, next :: (text ++ ['\n']) ≠ '\n' :: more := by
            intro isReturn more same
            injection same with isFeed
            exact single text isReturn (by rw [isFeed])
          simp only [List.cons_append] at inductionHypothesis ⊢
          rw [lines_end ended apart]
          exact inductionHypothesis.imp (congrArg ([] :: ·)) (congrArg ([] :: ·))
  | case4 c text single notEnd inductionHypothesis =>
      have plain : isLineEnd c = false := by simpa using notEnd
      rw [List.cons_append, lines_plain plain]
      cases text with
      | nil => exact .inl rfl
      | cons next text =>
          rcases inductionHypothesis with same | longer
          · exact .inl (congrArg (prependToFirst c) same)
          · right
            rw [longer]
            exact prependToFirst_append c (lines_ne_nil (by simp)) _

/-- Lines of their own are read back behind nothing. -/
theorem lines_flatMap {pieces : List (List Char)}
    (plain : ∀ piece ∈ pieces, ∀ c ∈ piece, isLineEnd c = false) :
    lines (pieces.flatMap fun piece => piece ++ ['\n']) = pieces := by
  induction pieces with
  | nil => rfl
  | cons piece rest inductionHypothesis =>
      rw [List.flatMap_cons, List.append_assoc, List.singleton_append,
        lines_line_append (plain piece (by simp)), inductionHypothesis]
      exact fun other member => plain other (List.mem_cons_of_mem _ member)

/-- Unifying line ends leaves no carriage return. -/
theorem notMem_unifyLineEnds (text : List Char) : '\r' ∉ unifyLineEnds text := by
  fun_induction unifyLineEnds text with
  | case1 => exact List.not_mem_nil
  | case2 rest inductionHypothesis => simpa using inductionHypothesis
  | case3 rest notPair inductionHypothesis => simpa using inductionHypothesis
  | case4 c rest notPair notReturn inductionHypothesis =>
      rw [List.mem_cons, not_or]
      exact ⟨fun same => notReturn same.symm, inductionHypothesis⟩

/-- Unifying line ends leaves something of every text that is not empty. -/
theorem unifyLineEnds_ne_nil {text : List Char} (nonempty : text ≠ []) : unifyLineEnds text ≠ [] := by
  fun_cases unifyLineEnds text with
  | case1 => exact absurd rfl nonempty
  | case2 => exact List.cons_ne_nil _ _
  | case3 => exact List.cons_ne_nil _ _
  | case4 => exact List.cons_ne_nil _ _

/-- A text without carriage returns stays as it is in front of others. -/
theorem unifyLineEnds_append {text : List Char} (absent : '\r' ∉ text) (rest : List Char) :
    unifyLineEnds (text ++ rest) = text ++ unifyLineEnds rest := by
  induction text with
  | nil => rfl
  | cons c text inductionHypothesis =>
      rw [List.mem_cons, not_or] at absent
      have other : c ≠ '\r' := Ne.symm absent.1
      rw [List.cons_append, unifyLineEnds.eq_4, inductionHypothesis absent.2, List.cons_append]
      · exact fun _ equal _ => other equal
      · exact other

/-- Without carriage returns there are no line ends to unify. -/
theorem unifyLineEnds_of_notMem {text : List Char} (absent : '\r' ∉ text) :
    unifyLineEnds text = text := by
  simpa [unifyLineEnds] using unifyLineEnds_append absent []

/-- A carriage return that no line feed follows is a line end of its own. -/
theorem unifyLineEnds_return {rest : List Char} (single : rest.head? ≠ some '\n') :
    unifyLineEnds ('\r' :: rest) = '\n' :: unifyLineEnds rest := by
  refine unifyLineEnds.eq_3 rest fun more pair => ?_
  rw [pair] at single
  exact single rfl

/-- Texts are unified one after the other where no line feed stands at the seam. -/
theorem unifyLineEnds_append_of_head {rest : List Char} (apart : rest.head? ≠ some '\n')
    (text : List Char) : unifyLineEnds (text ++ rest) = unifyLineEnds text ++ unifyLineEnds rest := by
  fun_induction unifyLineEnds text with
  | case1 => rfl
  | case2 text inductionHypothesis => simpa [unifyLineEnds] using inductionHypothesis
  | case3 text single inductionHypothesis =>
      have stillSingle : (text ++ rest).head? ≠ some '\n' := by
        cases text with
        | nil => exact apart
        | cons c text =>
            intro same
            exact single text (by rw [Option.some.inj same])
      rw [List.cons_append, unifyLineEnds_return stillSingle, inductionHypothesis, List.cons_append]
  | case4 c text single notReturn inductionHypothesis =>
      rw [List.cons_append, unifyLineEnds.eq_4, inductionHypothesis, List.cons_append]
      · exact fun _ equal _ => notReturn equal
      · exact notReturn

/-- A text with a carriage return is no start of a text that starts with its unified form. -/
theorem not_prefix_unifyLineEnds {text : List Char} (returns : '\r' ∈ text) (tail : List Char) :
    ¬text <+: unifyLineEnds text ++ tail := by
  obtain ⟨front, rest, rfl, first⟩ := List.eq_append_cons_of_mem returns
  intro starts
  rw [unifyLineEnds_append first, List.append_assoc, List.prefix_append_right_inj] at starts
  obtain ⟨more, unified⟩ : ∃ more, unifyLineEnds ('\r' :: rest) = '\n' :: more := by
    cases rest with
    | nil => exact ⟨[], rfl⟩
    | cons c rest =>
        by_cases feed : c = '\n'
        · subst feed
          exact ⟨_, rfl⟩
        · exact ⟨_, unifyLineEnds_return (by simpa using feed)⟩
  rw [unified, List.cons_append, List.cons_prefix_cons] at starts
  exact absurd starts.1 (by decide)

/-- A text with a carriage return is no end of its unified form behind complete lines. -/
theorem not_suffix_unifyLineEnds {text head : List Char} (returns : '\r' ∈ text)
    (complete : head.getLast? ≠ some '\r') : ¬text <:+ head ++ unifyLineEnds text := by
  obtain ⟨rest, front, split, last⟩ := List.eq_append_cons_of_mem (List.mem_reverse.mpr returns)
  obtain rfl : text = front.reverse ++ '\r' :: rest.reverse := by
    rw [← List.reverse_reverse text, split]
    simp
  rw [← List.mem_reverse] at last
  generalize front.reverse = front at *
  generalize rest.reverse = rest at *
  have unified : unifyLineEnds (front ++ '\r' :: rest)
      = unifyLineEnds front ++ unifyLineEnds ('\r' :: rest) :=
    unifyLineEnds_append_of_head (by simp) front
  rintro ⟨before, ends⟩
  rw [unified, ← List.append_assoc] at ends
  by_cases pair : ∃ more, rest = '\n' :: more
  · -- The pair became one line feed, so the carriage return would be the last character before it.
    obtain ⟨more, rfl⟩ := pair
    have plain : '\r' ∉ more := fun inside => last (List.mem_cons_of_mem _ inside)
    have joined : (before ++ front ++ ['\r']) ++ '\n' :: more
        = (head ++ unifyLineEnds front) ++ '\n' :: more := by
      rw [unifyLineEnds, unifyLineEnds_of_notMem plain] at ends
      simpa using ends
    have lastOne := congrArg List.getLast? (List.append_cancel_right joined)
    rw [List.getLast?_concat, List.getLast?_append] at lastOne
    cases tail : (unifyLineEnds front).getLast? with
    | none => exact complete (by rw [lastOne, tail, Option.none_or])
    | some c =>
        rw [tail, Option.some_or] at lastOne
        obtain rfl := Option.some.inj lastOne
        exact notMem_unifyLineEnds front (List.mem_of_getLast? tail)
  · have single : rest.head? ≠ some '\n' := fun feed => pair (List.head?_eq_some_iff.mp feed)
    have joined : (before ++ front ++ ['\r']) ++ rest
        = (head ++ unifyLineEnds front ++ ['\n']) ++ rest := by
      rw [unifyLineEnds_return single, unifyLineEnds_of_notMem last] at ends
      simpa using ends
    have lastOne := congrArg List.getLast? (List.append_cancel_right joined)
    rw [List.getLast?_concat, List.getLast?_concat] at lastOne
    exact absurd lastOne (by decide)

/-! ## Bytes -/

variable {text later : String} {content more : ByteArray}

/-- Bytes that are decoded to a text are those that store it. -/
theorem eq_toUTF8_of_decode (decoded : decode content = .ok text) : content = text.toUTF8 := by
  unfold decode at decoded
  split at decoded
  · rw [← Except.ok.inj decoded]
    rfl
  · cases decoded

/-- The bytes of a text are a start of the bytes of another exactly if its characters are. -/
theorem toUTF8_prefix_iff :
    (∃ more, later.toUTF8 = text.toUTF8 ++ more) ↔ text.toList <+: later.toList := by
  constructor
  · rintro ⟨more, same⟩
    apply List.isPrefix_of_utf8Encode_append_eq_utf8Encode more
    rw [String.utf8Encode_toList, String.utf8Encode_toList]
    exact same.symm
  · rintro ⟨tail, same⟩
    obtain rfl : later = text ++ String.ofList tail := by
      rw [← String.toList_inj, ← same, String.toList_append, String.toList_ofList]
    exact ⟨(String.ofList tail).toUTF8, String.toByteArray_append⟩

/-- The bytes of a text are an end of the bytes of another exactly if its characters are. -/
theorem toUTF8_suffix_iff :
    (∃ more, later.toUTF8 = more ++ text.toUTF8) ↔ text.toList <:+ later.toList := by
  constructor
  · rintro ⟨more, same⟩
    replace same : later.toByteArray = more ++ text.toByteArray := same
    have size : later.utf8ByteSize = more.size + text.toByteArray.size := by
      rw [← ByteArray.size_append, ← same, String.size_toByteArray]
    -- What follows the place is a text, so the place is between characters, and what precedes it is one too.
    have between : String.Pos.Raw.IsValid later ⟨more.size⟩ := by
      refine String.Pos.Raw.isValid_iff_isValidUTF8_extract_utf8ByteSize.mpr ⟨?_, ?_⟩
      · rw [String.Pos.Raw.le_iff, String.byteIdx_rawEndPos, size]
        exact Nat.le_add_right ..
      · rw [same, ByteArray.extract_append_eq_right rfl size]
        exact text.isValidUTF8
    have front := (String.Pos.Raw.isValid_iff_isValidUTF8_extract_zero.mp between).2
    rw [same, ByteArray.extract_append_eq_left rfl] at front
    obtain rfl : later = String.ofByteArray more front ++ text := by
      rw [← String.toByteArray_inj, String.toByteArray_append, same]
    rw [String.toList_append]
    exact List.suffix_append ..
  · rintro ⟨head, same⟩
    obtain rfl : later = String.ofList head ++ text := by
      rw [← String.toList_inj, ← same, String.toList_append, String.toList_ofList]
    exact ⟨(String.ofList head).toUTF8, String.toByteArray_append⟩

end Scaffold.Text
