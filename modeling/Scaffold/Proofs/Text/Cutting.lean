import Scaffold.Proofs.Text.Lines

/-!
# Laws of cutting

A text that is cut between two of its lines has the lines of both parts, one after the other
(`lines_take_append_drop`).  Line feeds alone end the same lines as before when line ends are unified
(`lines_unifyLineEnds`).

The lines of a plain text end in line feeds, perhaps with a carriage return before them, and no other line ends
are in it.  Such lines are cut apart again when they are put one behind the other
(`AreLines.linesWithEnds_flatten`).  Of the lines of any text it is known what each ends with and what it does not
have inside (`areCut_linesWithEnds`), and so they are cut apart again (`AreCut.linesWithEnds_flatten`) when lines are
put behind complete ones (`AreCut.append`) or the start of a line is exchanged (`AreCut.exchange`).  Two texts that
are put together keep their lines exactly if they meet between lines (`linesWithEnds_append_iff`).
-/

namespace Scaffold.Text

/-- A character that ends no line belongs to the first line. -/
theorem linesWithEnds_plain {c : Char} (plain : isLineEnd c = false) (rest : List Char) :
    linesWithEnds (c :: rest) = prependToFirst c (linesWithEnds rest) := by
  rw [linesWithEnds.eq_3, plain]
  · rfl
  · rintro more rfl
    exact absurd plain (by decide)

/-- A line end that starts no pair is a line of its own. -/
theorem linesWithEnds_end {c : Char} {rest : List Char} (ended : isLineEnd c = true)
    (single : c = '\r' → ∀ more, rest ≠ '\n' :: more) :
    linesWithEnds (c :: rest) = [c] :: linesWithEnds rest := by
  rw [linesWithEnds.eq_3, ended]
  · rfl
  · exact fun more isReturn => single isReturn more

/-- The first lines after a character was put in front. -/
theorem take_prependToFirst (c : Char) (pieces : List (List Char)) (count : Nat) :
    (prependToFirst c pieces).take (count + 1) = prependToFirst c (pieces.take (count + 1)) := by
  cases pieces <;> simp [prependToFirst]

/-- The last lines after a character was put in front. -/
theorem drop_prependToFirst (c : Char) (pieces : List (List Char)) (count : Nat) :
    (prependToFirst c pieces).drop (count + 1) = pieces.drop (count + 1) := by
  cases pieces <;> simp [prependToFirst]

/-- A line with its end is not empty. -/
theorem ne_nil_of_mem_linesWithEnds (text : List Char) : ∀ line ∈ linesWithEnds text, line ≠ [] := by
  fun_induction linesWithEnds text with
  | case1 => simp
  | case2 rest inductionHypothesis => simpa using inductionHypothesis
  | case3 c rest single ended inductionHypothesis => simpa using inductionHypothesis
  | case4 c rest single notEnd inductionHypothesis =>
      exact forall_mem_prependToFirst (List.cons_ne_nil _ _) (fun _ _ => List.cons_ne_nil _ _)
        inductionHypothesis

/-- What some of the first lines make up starts the text. -/
theorem flatten_take_prefix (text : List Char) (count : Nat) :
    ((linesWithEnds text).take count).flatten <+: text := by
  have whole := flatten_linesWithEnds text
  rw [← List.take_append_drop count (linesWithEnds text), List.flatten_append] at whole
  exact ⟨_, whole⟩

/-- The first lines of a text that is not empty make up something. -/
theorem flatten_take_ne_nil {text : List Char} (nonempty : text ≠ []) (count : Nat) :
    ((linesWithEnds text).take (count + 1)).flatten ≠ [] := by
  cases pieces : linesWithEnds text with
  | nil =>
      have whole := flatten_linesWithEnds text
      rw [pieces] at whole
      exact absurd whole.symm nonempty
  | cons piece rest =>
      have first : piece ≠ [] := ne_nil_of_mem_linesWithEnds text piece (by simp [pieces])
      rw [List.take_succ_cons, List.flatten_cons]
      exact List.append_ne_nil_of_left_ne_nil first _

/-- A text that is cut between two of its lines has the lines of both parts. -/
theorem lines_take_append_drop (text : List Char) (count : Nat) :
    lines ((linesWithEnds text).take count).flatten ++ lines ((linesWithEnds text).drop count).flatten
      = lines text := by
  fun_induction lines text generalizing count with
  | case1 => rw [linesWithEnds, List.take_nil, List.drop_nil]; rfl
  | case2 rest inductionHypothesis =>
      cases count with
      | zero => rw [List.take_zero, List.drop_zero, flatten_linesWithEnds]; rfl
      | succ count => exact congrArg ([] :: ·) (inductionHypothesis count)
  | case3 c rest single ended inductionHypothesis =>
      have unpaired : c = '\r' → ∀ more, rest ≠ '\n' :: more := fun isReturn more => single more isReturn
      cases count with
      | zero =>
          rw [List.take_zero, List.drop_zero, flatten_linesWithEnds, lines_end ended unpaired]
          rfl
      | succ count =>
          have apart : c = '\r' → ∀ more, ((linesWithEnds rest).take count).flatten ≠ '\n' :: more := by
            intro isReturn more same
            obtain ⟨tail, whole⟩ := flatten_take_prefix rest count
            exact unpaired isReturn (more ++ tail) (by rw [← whole, same]; rfl)
          rw [linesWithEnds_end ended unpaired, List.take_succ_cons, List.drop_succ_cons,
            List.flatten_cons, List.singleton_append, lines_end ended apart, List.cons_append,
            inductionHypothesis]
  | case4 c rest single notEnd inductionHypothesis =>
      have plain : isLineEnd c = false := by simpa using notEnd
      cases count with
      | zero =>
          rw [List.take_zero, List.drop_zero, flatten_linesWithEnds, lines_plain plain]
          rfl
      | succ count =>
          rw [linesWithEnds_plain plain, take_prependToFirst, drop_prependToFirst,
            flatten_prependToFirst, lines_plain plain, ← inductionHypothesis (count + 1)]
          by_cases empty : rest = []
          · rw [empty]
            rfl
          · exact (prependToFirst_append c (lines_ne_nil (flatten_take_ne_nil empty count)) _).symm

/-- Unifying line ends keeps the lines of a text. -/
theorem lines_unifyLineEnds (text : List Char) : lines (unifyLineEnds text) = lines text := by
  fun_induction lines text with
  | case1 => rfl
  | case2 rest inductionHypothesis =>
      rw [unifyLineEnds, lines_newline, inductionHypothesis]
  | case3 c rest single ended inductionHypothesis =>
      by_cases isReturn : c = '\r'
      · subst isReturn
        have apart : rest.head? ≠ some '\n' := fun feed => by
          obtain ⟨more, same⟩ := List.head?_eq_some_iff.mp feed
          exact single more rfl same
        rw [unifyLineEnds_return apart, lines_newline, inductionHypothesis]
      · rw [unifyLineEnds.eq_4, lines_end ended fun same => absurd same isReturn, inductionHypothesis]
        · exact fun _ same _ => isReturn same
        · exact isReturn
  | case4 c rest single notEnd inductionHypothesis =>
      have plain : isLineEnd c = false := by simpa using notEnd
      have other : c ≠ '\r' := by
        rintro rfl
        exact absurd plain (by decide)
      rw [unifyLineEnds.eq_4, lines_plain plain, inductionHypothesis]
      · exact fun _ same _ => other same
      · exact other

/-- A line feed remains one when line ends are unified, together with a carriage return before it. -/
theorem exists_unifyLineEnds_newline (text rest : List Char) :
    ∃ start, unifyLineEnds (text ++ '\n' :: rest) = start ++ '\n' :: unifyLineEnds rest := by
  fun_induction unifyLineEnds text with
  | case1 => exact ⟨[], by rw [List.nil_append, unifyLineEnds.eq_4] <;> simp⟩
  | case2 text inductionHypothesis =>
      obtain ⟨start, same⟩ := inductionHypothesis
      exact ⟨'\n' :: start, by simp [unifyLineEnds, same]⟩
  | case3 text single inductionHypothesis =>
      cases text with
      | nil => exact ⟨[], by simp [unifyLineEnds]⟩
      | cons c text =>
          have apart : (c :: text ++ '\n' :: rest).head? ≠ some '\n' := fun feed =>
            single text (by rw [Option.some.inj feed])
          obtain ⟨start, same⟩ := inductionHypothesis
          exact ⟨'\n' :: start, by rw [List.cons_append, unifyLineEnds_return apart, same]; rfl⟩
  | case4 c text single notReturn inductionHypothesis =>
      obtain ⟨start, same⟩ := inductionHypothesis
      refine ⟨c :: start, ?_⟩
      rw [List.cons_append, unifyLineEnds.eq_4, same]
      · rfl
      · exact fun _ equal _ => notReturn equal
      · exact notReturn

/-! ## Plain lines -/

/-- The end of a plain line. -/
def IsEnding (ending : List Char) : Prop := ending = ['\n'] ∨ ending = ['\r', '\n']

/-- A line with a plain end and no other line end. -/
inductive IsLine : List Char → Prop where
  | intro {body ending} (unbroken : ∀ c ∈ body, isLineEnd c = false) (ended : IsEnding ending) :
      IsLine (body ++ ending)

/-- Plain lines, the last of which may lack its end. -/
inductive AreLines : List (List Char) → Prop where
  | nil : AreLines []
  | last {body} (nonempty : body ≠ []) (unbroken : ∀ c ∈ body, isLineEnd c = false) : AreLines [body]
  | cons {line rest} (isLine : IsLine line) (others : AreLines rest) : AreLines (line :: rest)

/-- A text of plain lines. -/
def HasPlainLines (text : List Char) : Prop := AreLines (linesWithEnds text)

variable {body ending rest line : List Char} {before after lines : List (List Char)}

/-- Whether a text has a line end can be computed. -/
theorem unbroken_of_all {text : List Char} (all : text.all (fun c => !isLineEnd c) = true) :
    ∀ c ∈ text, isLineEnd c = false := by
  simpa using all

/-- A line is cut off where it ends. -/
theorem linesWithEnds_line (unbroken : ∀ c ∈ body, isLineEnd c = false) (ended : IsEnding ending)
    (rest : List Char) : linesWithEnds (body ++ (ending ++ rest)) = (body ++ ending) :: linesWithEnds rest := by
  induction body with
  | nil => rcases ended with rfl | rfl <;> rfl
  | cons c body inductionHypothesis =>
      obtain ⟨plain, others⟩ := List.forall_mem_cons.mp unbroken
      rw [List.cons_append, linesWithEnds_plain plain, inductionHypothesis others]
      rfl

/-- A text without line ends is a line. -/
theorem linesWithEnds_last (nonempty : body ≠ []) (unbroken : ∀ c ∈ body, isLineEnd c = false) :
    linesWithEnds body = [body] := by
  induction body with
  | nil => exact absurd rfl nonempty
  | cons c body inductionHypothesis =>
      obtain ⟨plain, others⟩ := List.forall_mem_cons.mp unbroken
      rw [linesWithEnds_plain plain]
      by_cases empty : body = []
      · rw [empty]
        rfl
      · rw [inductionHypothesis empty others]
        rfl

/-- Plain lines are cut apart again. -/
theorem AreLines.linesWithEnds_flatten (areLines : AreLines lines) : linesWithEnds lines.flatten = lines := by
  induction areLines with
  | nil => rfl
  | last nonempty unbroken => simpa using linesWithEnds_last nonempty unbroken
  | cons isLine others inductionHypothesis =>
      obtain ⟨unbroken, ended⟩ := isLine
      rw [List.flatten_cons, List.append_assoc, linesWithEnds_line unbroken ended, inductionHypothesis]

/-- Lines in front of others have their ends. -/
theorem areLines_append_iff (nonempty : after ≠ []) :
    AreLines (before ++ after) ↔ (∀ line ∈ before, IsLine line) ∧ AreLines after := by
  induction before with
  | nil => simp
  | cons line before inductionHypothesis =>
      rw [List.forall_mem_cons, and_assoc, ← inductionHypothesis, List.cons_append]
      constructor
      · intro areLines
        generalize whole : line :: (before ++ after) = all at areLines
        cases areLines with
        | nil => cases whole
        | last => exact absurd (List.append_eq_nil_iff.mp (List.cons.inj whole).2).2 nonempty
        | cons isLine others =>
            obtain ⟨rfl, rfl⟩ := List.cons.inj whole
            exact ⟨isLine, others⟩
      · rintro ⟨isLine, others⟩
        exact .cons isLine others

/-- Complete lines can stand before plain ones. -/
theorem AreLines.prepend (areLines : AreLines after) (complete : ∀ line ∈ before, IsLine line) :
    AreLines (before ++ after) := by
  induction before with
  | nil => exact areLines
  | cons line before inductionHypothesis =>
      obtain ⟨isLine, others⟩ := List.forall_mem_cons.mp complete
      exact .cons isLine (inductionHypothesis others)

/-- Parts of plain lines are plain lines. -/
theorem AreLines.parts (areLines : AreLines (before ++ after)) : AreLines before ∧ AreLines after := by
  by_cases empty : after = []
  · subst empty
    exact ⟨by rwa [List.append_nil] at areLines, .nil⟩
  · obtain ⟨complete, behind⟩ := (areLines_append_iff empty).mp areLines
    exact ⟨by simpa using AreLines.nil.prepend complete, behind⟩

/-- Each of several plain lines is complete or lacks nothing but its end. -/
theorem AreLines.isLine_or (areLines : AreLines lines) (member : line ∈ lines) :
    IsLine line ∨ line ≠ [] ∧ ∀ c ∈ line, isLineEnd c = false := by
  induction areLines with
  | nil => cases member
  | last nonempty unbroken => exact .inr (List.mem_singleton.mp member ▸ ⟨nonempty, unbroken⟩)
  | cons isLine others inductionHypothesis =>
      rcases List.mem_cons.mp member with rfl | later
      · exact .inl isLine
      · exact inductionHypothesis later

/-- What plain lines make up is plain. -/
theorem AreLines.hasPlainLines (areLines : AreLines lines) : HasPlainLines lines.flatten := by
  rwa [HasPlainLines, areLines.linesWithEnds_flatten]

/-! ## Lines of any text -/

/-- The end of a line in front of others: a pair, or one character that does not form a pair with what follows. -/
inductive IsEnd (behind : List Char) : List Char → Prop where
  | pair : IsEnd behind ['\r', '\n']
  | single {c : Char} (ended : isLineEnd c = true) (apart : c = '\r' → behind.head? ≠ some '\n') : IsEnd behind [c]

/-- Lines as a text is cut into them, the last of which may lack its end. -/
inductive AreCut : List (List Char) → Prop where
  | nil : AreCut []
  | last {body : List Char} (nonempty : body ≠ []) (unbroken : ∀ c ∈ body, isLineEnd c = false) : AreCut [body]
  | cons {body ending : List Char} {rest : List (List Char)} (unbroken : ∀ c ∈ body, isLineEnd c = false)
      (ended : IsEnd rest.flatten ending) (others : AreCut rest) : AreCut ((body ++ ending) :: rest)

/-- The end of a line is made of line ends. -/
theorem IsEnd.isLineEnd {behind : List Char} (ended : IsEnd behind ending) : ∀ c ∈ ending, isLineEnd c = true := by
  cases ended with
  | pair => exact List.all_eq_true.mp rfl
  | single ended _ => exact List.forall_mem_singleton.mpr ended

/-- The end of a line is not empty. -/
theorem IsEnd.ne_nil {behind : List Char} (ended : IsEnd behind ending) : ending ≠ [] := by
  cases ended <;> simp

/-- Only the first character behind the end of a line matters. -/
theorem IsEnd.congr {behind behind' : List Char} (ended : IsEnd behind ending)
    (same : behind'.head? = some '\n' → behind.head? = some '\n') : IsEnd behind' ending := by
  cases ended with
  | pair => exact .pair
  | single ended apart => exact .single ended fun isReturn feed => apart isReturn (same feed)

/-- Lines are not empty. -/
theorem AreCut.ne_nil (areCut : AreCut (line :: lines)) : line ≠ [] := by
  cases areCut with
  | last nonempty _ => exact nonempty
  | cons _ ended _ => exact List.append_ne_nil_of_right_ne_nil _ ended.ne_nil

/-- A character in front of lines belongs to the first of them, unless it ends a line. -/
theorem AreCut.prependToFirst {c : Char} (plain : isLineEnd c = false) (areCut : AreCut lines) :
    AreCut (prependToFirst c lines) := by
  cases areCut with
  | nil => exact .last (List.cons_ne_nil c []) (by simpa using plain)
  | last nonempty unbroken =>
      exact .last (List.cons_ne_nil c _) (List.forall_mem_cons.mpr ⟨plain, unbroken⟩)
  | cons unbroken ended others =>
      exact @AreCut.cons (c :: _) _ _ (List.forall_mem_cons.mpr ⟨plain, unbroken⟩) ended others

/-- A text is cut into lines. -/
theorem areCut_linesWithEnds (text : List Char) : AreCut (linesWithEnds text) := by
  fun_induction linesWithEnds text with
  | case1 => exact .nil
  | case2 rest inductionHypothesis => exact @AreCut.cons [] _ _ (by simp) .pair inductionHypothesis
  | case3 c rest single ended inductionHypothesis =>
      refine @AreCut.cons [] _ _ (by simp) (.single ended fun isReturn feed => ?_) inductionHypothesis
      rw [flatten_linesWithEnds] at feed
      obtain ⟨more, same⟩ := List.head?_eq_some_iff.mp feed
      exact single more isReturn same
  | case4 c rest single notEnd inductionHypothesis =>
      exact inductionHypothesis.prependToFirst (by simpa using notEnd)

/-- A line is cut off where it ends, whatever ends it. -/
theorem linesWithEnds_ended (unbroken : ∀ c ∈ body, isLineEnd c = false) (ended : IsEnd rest ending) :
    linesWithEnds (body ++ (ending ++ rest)) = (body ++ ending) :: linesWithEnds rest := by
  induction body with
  | nil =>
      cases ended with
      | pair => rfl
      | single ended apart =>
          refine linesWithEnds_end ended fun isReturn more same => apart isReturn ?_
          exact congrArg List.head? same
  | cons c body inductionHypothesis =>
      obtain ⟨plain, others⟩ := List.forall_mem_cons.mp unbroken
      rw [List.cons_append, linesWithEnds_plain plain, inductionHypothesis others]
      rfl

/-- Lines are cut apart again. -/
theorem AreCut.linesWithEnds_flatten (areCut : AreCut lines) : linesWithEnds lines.flatten = lines := by
  induction areCut with
  | nil => rfl
  | last nonempty unbroken => simpa using linesWithEnds_last nonempty unbroken
  | cons unbroken ended others inductionHypothesis =>
      rw [List.flatten_cons, List.append_assoc, linesWithEnds_ended unbroken ended, inductionHypothesis]

/-- Lines that make up nothing are none. -/
theorem AreCut.eq_nil (areCut : AreCut lines) (nothing : lines.flatten = []) : lines = [] := by
  cases lines with
  | nil => rfl
  | cons line rest => exact absurd (List.append_eq_nil_iff.mp nothing).1 areCut.ne_nil

/-- Two texts meet between lines: one of them is empty, or the first ends with a character that ends a line and
forms no pair with what the second starts with. -/
def MeetBetweenLines (before after : List Char) : Prop :=
  before = [] ∨ after = [] ∨ ∃ c, before.getLast? = some c ∧ IsEnd after [c]

/-- Lines can stand behind lines that they meet between lines. -/
theorem AreCut.join (front : AreCut before) (back : AreCut after)
    (meet : MeetBetweenLines before.flatten after.flatten) : AreCut (before ++ after) := by
  induction front with
  | nil => exact back
  | @last body nonempty unbroken =>
      rw [List.flatten_singleton] at meet
      rcases meet with nothing | nothing | ⟨c, isLast, ended⟩
      · exact absurd nothing nonempty
      · rw [back.eq_nil nothing]
        exact .last nonempty unbroken
      · have plain := unbroken c (List.mem_of_getLast? isLast)
        rw [ended.isLineEnd c List.mem_cons_self] at plain
        cases plain
  | @cons body ending rest unbroken ended others inductionHypothesis =>
      refine .cons unbroken ?_ (inductionHypothesis ?_)
      · cases rest with
        | nil =>
            -- The end of the last line is followed by what the two parts meet at.
            rcases meet with nothing | nothing | ⟨c, isLast, single⟩
            · exact absurd nothing (by simp [ended.ne_nil])
            · exact ended.congr fun feed => by simp [nothing] at feed
            · cases ended with
              | pair => exact .pair
              | single _ _ =>
                  obtain rfl : _ = c := by simpa using isLast
                  exact single
        | cons line rest =>
            obtain ⟨c, line, rfl⟩ := List.exists_cons_of_ne_nil others.ne_nil
            exact ended.congr id
      · by_cases nothing : rest.flatten = []
        · exact .inl nothing
        · refine .inr ((meet.resolve_left ?_).imp_right ?_)
          · simp [ended.ne_nil]
          · rintro ⟨c, isLast, single⟩
            rw [List.flatten_cons, List.getLast?_append, Option.or_of_isSome (by simpa using nothing)] at isLast
            exact ⟨c, isLast, single⟩

/-- Lines can stand behind a line feed. -/
theorem AreCut.append (front : AreCut before) (back : AreCut after)
    (complete : before.flatten = [] ∨ before.flatten.getLast? = some '\n') : AreCut (before ++ after) :=
  front.join back (complete.imp_right fun feed => .inr ⟨'\n', feed, .single rfl fun same => absurd same (by decide)⟩)

/-- Parts of lines are lines. -/
theorem AreCut.parts (areCut : AreCut (before ++ after)) : AreCut before ∧ AreCut after := by
  induction before with
  | nil => exact ⟨.nil, areCut⟩
  | cons line before inductionHypothesis =>
      rw [List.cons_append] at areCut
      generalize whole : line :: (before ++ after) = lines at areCut
      cases areCut with
      | nil => cases whole
      | last nonempty unbroken =>
          obtain ⟨rfl, none⟩ := List.cons.inj whole
          obtain ⟨rfl, rfl⟩ := List.append_eq_nil_iff.mp none
          exact ⟨.last nonempty unbroken, .nil⟩
      | cons unbroken ended others =>
          obtain ⟨rfl, rfl⟩ := List.cons.inj whole
          obtain ⟨front, back⟩ := inductionHypothesis others
          refine ⟨.cons unbroken (ended.congr fun feed => ?_) front, back⟩
          obtain ⟨more, same⟩ := List.head?_eq_some_iff.mp feed
          rw [List.flatten_append, same]
          rfl

/-- What lines make up meets between lines wherever they are parted. -/
theorem AreCut.meet (areCut : AreCut (before ++ after)) : MeetBetweenLines before.flatten after.flatten := by
  rcases List.eq_nil_or_concat before with rfl | ⟨front, line, rfl⟩
  · exact .inl rfl
  rw [List.concat_eq_append, List.append_assoc, List.singleton_append] at areCut
  have back := areCut.parts.2
  generalize whole : line :: after = lines at back
  cases back with
  | nil => cases whole
  | last _ _ =>
      obtain ⟨_, rfl⟩ := List.cons.inj whole
      exact .inr (.inl rfl)
  | cons _ ended _ =>
      obtain ⟨rfl, rfl⟩ := List.cons.inj whole
      refine .inr (.inr ?_)
      cases ended with
      | pair => exact ⟨'\n', by simp, .single rfl fun same => absurd same (by decide)⟩
      | @single c isEnd apart => exact ⟨c, by simp, .single isEnd apart⟩

/-- A text has the lines of two parts exactly if they meet between lines. -/
theorem linesWithEnds_append_iff {front back : List Char} :
    linesWithEnds (front ++ back) = linesWithEnds front ++ linesWithEnds back ↔ MeetBetweenLines front back := by
  constructor
  · intro parted
    have areCut := areCut_linesWithEnds (front ++ back)
    rw [parted] at areCut
    simpa only [flatten_linesWithEnds] using areCut.meet
  · intro meet
    have areCut : AreCut (linesWithEnds front ++ linesWithEnds back) :=
      (areCut_linesWithEnds front).join (areCut_linesWithEnds back) (by simpa only [flatten_linesWithEnds])
    rw [← areCut.linesWithEnds_flatten, List.flatten_append, flatten_linesWithEnds, flatten_linesWithEnds]

/-- Before a character of a line that does not end it the line has no end. -/
theorem AreCut.unbroken {start tail : List Char} {c : Char} (areCut : AreCut (before ++ (start ++ c :: tail) :: after))
    (plain : isLineEnd c = false) : ∀ d ∈ start, isLineEnd d = false := by
  have back := areCut.parts.2
  generalize whole : (start ++ c :: tail) :: after = lines at back
  cases back with
  | nil => cases whole
  | last _ single =>
      obtain ⟨rfl, _⟩ := List.cons.inj whole
      exact fun d member => single d (List.mem_append_left _ member)
  | cons single ended _ =>
      obtain ⟨split, _⟩ := List.cons.inj whole
      rcases List.append_eq_append_iff.mp split with ⟨more, bodyIs, _⟩ | ⟨more, startIs, endingIs⟩
      · exact fun d member => single d (by rw [bodyIs]; exact List.mem_append_left _ member)
      · have isEnd := ended.isLineEnd c (by simp [endingIs])
        rw [plain] at isEnd
        cases isEnd

/-- Texts without line ends are lines in front of others if line feeds follow them. -/
theorem AreCut.prepend {texts : List (List Char)} (areCut : AreCut lines)
    (unbroken : ∀ text ∈ texts, ∀ c ∈ text, isLineEnd c = false) :
    AreCut (texts.map (fun text => text ++ ['\n']) ++ lines) := by
  induction texts with
  | nil => exact areCut
  | cons text texts inductionHypothesis =>
      obtain ⟨first, others⟩ := List.forall_mem_cons.mp unbroken
      exact .cons first (.single rfl fun same => absurd same (by decide)) (inductionHypothesis others)

/-- The start of a line can be another if it ends no line. -/
theorem AreCut.exchange {start start' tail : List Char} (areCut : AreCut (before ++ (start ++ tail) :: after))
    (nonempty : start' ≠ []) (unbroken : ∀ c ∈ start, isLineEnd c = false)
    (fresh : ∀ c ∈ start', isLineEnd c = false) : AreCut (before ++ (start' ++ tail) :: after) := by
  induction before with
  | nil =>
      rw [List.nil_append] at areCut ⊢
      generalize whole : (start ++ tail) :: after = lines at areCut
      cases areCut with
      | nil => cases whole
      | last _ single =>
          obtain ⟨rfl, rfl⟩ := List.cons.inj whole
          exact .last (List.append_ne_nil_of_left_ne_nil nonempty tail)
            (List.forall_mem_append.mpr ⟨fresh, fun c member => single c (List.mem_append_right _ member)⟩)
      | @cons body ending rest single ended others =>
          obtain ⟨split, rfl⟩ := List.cons.inj whole
          -- The start ends before the line does.
          obtain ⟨more, rfl, rfl⟩ : ∃ more, body = start ++ more ∧ tail = more ++ ending := by
            rcases List.append_eq_append_iff.mp split with ⟨more, bodyIs, tailIs⟩ | ⟨more, startIs, endingIs⟩
            · exact ⟨more, bodyIs, tailIs⟩
            · cases more with
              | nil => exact ⟨[], by simp [startIs], by simp [endingIs]⟩
              | cons c more =>
                  have isEnd := ended.isLineEnd c (by simp [endingIs])
                  rw [unbroken c (by simp [startIs])] at isEnd
                  cases isEnd
          rw [← List.append_assoc]
          exact .cons (List.forall_mem_append.mpr
            ⟨fresh, fun c member => single c (List.mem_append_right _ member)⟩) ended others
  | cons line before inductionHypothesis =>
      rw [List.cons_append] at areCut ⊢
      generalize whole : line :: (before ++ (start ++ tail) :: after) = lines at areCut
      cases areCut with
      | nil => cases whole
      | last => exact absurd (List.append_eq_nil_iff.mp (List.cons.inj whole).2).2 (List.cons_ne_nil _ _)
      | @cons body ending rest single ended others =>
          obtain ⟨rfl, rfl⟩ := List.cons.inj whole
          refine .cons single (ended.congr fun feed => ?_) (inductionHypothesis others)
          cases before with
          | nil =>
              obtain ⟨c, start', rfl⟩ := List.exists_cons_of_ne_nil nonempty
              obtain rfl := Option.some.inj feed
              exact absurd (fresh '\n' List.mem_cons_self) (by decide)
          | cons line before =>
              obtain ⟨c, line, rfl⟩ := List.exists_cons_of_ne_nil others.ne_nil
              exact feed

end Scaffold.Text
