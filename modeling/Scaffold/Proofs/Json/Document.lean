import Scaffold.Json.Printer
import Scaffold.Json.Reader
import Scaffold.Proofs.Decimal.Digits
import Scaffold.Proofs.Value.Keyed

/-!
# What documents hold

`Json.IsDocument` says which values a document can hold: their mappings have distinct texts as keys, no
part is a date, no text has a lone half of a character, and no integer is longer than documents allow.  Each of
them can be written (`HasForm.of_isDocument`).  Reading gives such values, except that texts and keys may have
lone halves (`isReading_of_parse`).
-/

namespace Scaffold.Json

open Scaffold.Decimal

/-- A scalar has a form of its own in a document. -/
def IsPlain : Scalar → Prop
  | .moment _ => False
  | .torn _ => False
  | .int value => isLong value = false
  | _ => True

/-- A value that a document can hold. -/
abbrev IsDocument (value : Value) : Prop := value.Consists IsPlain

variable {plainDates : Bool} {entries : Entries} {key : Scalar} {value : Value}

/-- A list has a JSON form if all items have one. -/
theorem writeFaultItems?_eq_none_iff {items : List Value} :
    writeFaultItems? plainDates items = none ↔ ∀ item ∈ items, writeFault? plainDates item = none := by
  induction items with
  | nil => simp [writeFaultItems?]
  | cons item rest inductionHypothesis => simp [writeFaultItems?, inductionHypothesis]

/-- Entries have a JSON form if all keys and values have one. -/
theorem writeFaultEntries?_eq_none_iff :
    writeFaultEntries? plainDates entries = none
      ↔ ∀ entry ∈ entries, keyFault? entry.1 = none ∧ writeFault? plainDates entry.2 = none := by
  induction entries with
  | nil => simp [writeFaultEntries?]
  | cons entry rest inductionHypothesis =>
      simp [writeFaultEntries?, inductionHypothesis, and_assoc]

/-- A text is a key. -/
@[simp] theorem keyFault?_text (name : String) : keyFault? (.text name) = none := rfl

/-- A text is a value. -/
@[simp] theorem writeFault?_text (name : String) : writeFault? plainDates (.text name) = none := rfl

/-- A mapping has a JSON form if its entries have one. -/
@[simp] theorem writeFault?_mapping :
    writeFault? plainDates (.mapping entries) = writeFaultEntries? plainDates entries := rfl

/-- A list has a JSON form if its items have one. -/
@[simp] theorem writeFault?_list (items : List Value) :
    writeFault? plainDates (.list items) = writeFaultItems? plainDates items := rfl

/-- A list of texts has a JSON form. -/
@[simp] theorem writeFault?_texts (items : List String) :
    writeFault? plainDates (.texts items) = none := by
  simp [Value.texts, writeFaultItems?_eq_none_iff]

/-- Items have no lone half if none of them has one. -/
theorem halfOfItems?_eq_none_iff {items : List Value} :
    Value.halfOfItems? items = none ↔ ∀ item ∈ items, item.half? = none := by
  induction items with
  | nil => simp [Value.halfOfItems?]
  | cons item rest inductionHypothesis => simp [Value.halfOfItems?, inductionHypothesis]

/-- Entries have no lone half if no key and no value has one. -/
theorem halfOfEntries?_eq_none_iff :
    Value.halfOfEntries? entries = none ↔ ∀ entry ∈ entries, entry.1.half? = none ∧ entry.2.half? = none := by
  induction entries with
  | nil => simp [Value.halfOfEntries?]
  | cons entry rest inductionHypothesis =>
      simp [Value.halfOfEntries?, inductionHypothesis, and_assoc]

/-- A text that is no torn one has no lone half. -/
@[simp] theorem half?_text (name : String) : Value.half? (.text name) = none := rfl

/-- What a document can hold can be written. -/
theorem writeFault?_of_isDocument (document : IsDocument value) :
    writeFault? plainDates value = none := by
  induction document with
  | @scalar content plain =>
      cases content with
      | moment moment => exact plain.elim
      | int value => simpa [writeFault?, IsPlain] using plain
      | _ => rfl
  | list all inductionHypothesis => exact writeFaultItems?_eq_none_iff.mpr inductionHypothesis
  | mapping named all inductionHypothesis =>
      refine writeFaultEntries?_eq_none_iff.mpr fun entry member => ?_
      obtain ⟨name, isText⟩ := named.texts entry.1 (List.mem_map_of_mem member)
      exact ⟨by rw [isText, keyFault?_text], inductionHypothesis entry member⟩

/-- A value of scalars without lone halves, under texts, has none. -/
theorem half?_of_consists {plain : Scalar → Prop} (each : ∀ content, plain content → content.half? = none)
    (consists : value.Consists plain) : value.half? = none := by
  induction consists with
  | scalar isPlain => exact each _ isPlain
  | list all inductionHypothesis => exact halfOfItems?_eq_none_iff.mpr inductionHypothesis
  | mapping named all inductionHypothesis =>
      refine halfOfEntries?_eq_none_iff.mpr fun entry member => ?_
      obtain ⟨name, isText⟩ := named.texts entry.1 (List.mem_map_of_mem member)
      exact ⟨by rw [isText]; rfl, inductionHypothesis entry member⟩

/-- What a document can hold has no lone half. -/
theorem half?_of_isDocument (document : IsDocument value) : value.half? = none := by
  refine half?_of_consists (fun content plain => ?_) document
  cases content with
  | torn torn => exact plain.elim
  | _ => rfl

mutual

/-- What can be written without dates can be written. -/
theorem writeFault?_of_strict (value : Value) (free : writeFault? false value = none) :
    writeFault? true value = none := by
  match value with
  | .scalar content =>
      cases content with
      | moment moment => rfl
      | _ => exact free
  | .list items => exact writeFaultItems?_of_strict items free
  | .mapping entries => exact writeFaultEntries?_of_strict entries free

/-- So can items. -/
theorem writeFaultItems?_of_strict (items : List Value) (free : writeFaultItems? false items = none) :
    writeFaultItems? true items = none := by
  match items with
  | [] => rfl
  | item :: rest =>
      rw [writeFaultItems?_eq_none_iff, List.forall_mem_cons, ← writeFaultItems?_eq_none_iff] at free ⊢
      exact ⟨writeFault?_of_strict item free.1, writeFaultItems?_of_strict rest free.2⟩

/-- So can entries. -/
theorem writeFaultEntries?_of_strict (entries : List (Scalar × Value))
    (free : writeFaultEntries? false entries = none) : writeFaultEntries? true entries = none := by
  match entries with
  | [] => rfl
  | (key, value) :: rest =>
      rw [writeFaultEntries?_eq_none_iff, List.forall_mem_cons, ← writeFaultEntries?_eq_none_iff] at free ⊢
      exact ⟨⟨free.1.1, writeFault?_of_strict value free.1.2⟩, writeFaultEntries?_of_strict rest free.2⟩

end

/-- The fault of a key shows before anything is written. -/
theorem isLate_of_keyFault? {fault : WriteFault} (found : keyFault? key = some fault) : ¬fault.isLate := by
  cases key with
  | moment moment =>
      cases found
      exact Bool.false_ne_true
  | int number =>
      rw [keyFault?] at found
      split at found <;> cases found
      exact Bool.false_ne_true
  | _ => cases found

mutual

/-- So does the fault of a part without a JSON form. -/
theorem isLate_of_writeFault? {fault : WriteFault} (value : Value)
    (found : writeFault? plainDates value = some fault) : ¬fault.isLate := by
  match value with
  | .scalar content =>
      cases content with
      | moment moment =>
          rw [writeFault?] at found
          split at found <;> cases found
          exact Bool.false_ne_true
      | int number =>
          rw [writeFault?] at found
          split at found <;> cases found
          exact Bool.false_ne_true
      | _ => cases found
  | .list items => exact isLate_of_writeFaultItems? items found
  | .mapping entries => exact isLate_of_writeFaultEntries? entries found

/-- Among items too. -/
theorem isLate_of_writeFaultItems? {fault : WriteFault} (items : List Value)
    (found : writeFaultItems? plainDates items = some fault) : ¬fault.isLate := by
  match items with
  | [] => cases found
  | item :: rest =>
      rw [writeFaultItems?, Option.orElse_eq_orElse, Option.orElse_eq_or, Option.or_eq_some_iff] at found
      rcases found with here | ⟨_, later⟩
      · exact isLate_of_writeFault? item here
      · exact isLate_of_writeFaultItems? rest later

/-- And among entries. -/
theorem isLate_of_writeFaultEntries? {fault : WriteFault} (entries : List (Scalar × Value))
    (found : writeFaultEntries? plainDates entries = some fault) : ¬fault.isLate := by
  match entries with
  | [] => cases found
  | (key, value) :: rest =>
      simp only [writeFaultEntries?, Option.orElse_eq_orElse, Option.orElse_eq_or, Option.or_eq_some_iff]
        at found
      rcases found with ofKey | ⟨_, ofValue | ⟨_, later⟩⟩
      · exact isLate_of_keyFault? ofKey
      · exact isLate_of_writeFault? value ofValue
      · exact isLate_of_writeFaultEntries? rest later

end

/-- A value with distinct texts as keys that can be written without dates, and has no lone half, is what a
document can hold. -/
theorem isDocument_of_writeFault? (consists : value.Consists fun _ => True)
    (free : writeFault? false value = none) (whole : value.half? = none) : IsDocument value := by
  induction consists with
  | @scalar content _ =>
      cases content with
      | moment moment => cases free
      | torn torn => cases whole
      | int number => exact .scalar (by simpa [writeFault?, IsPlain] using free)
      | _ => exact .scalar trivial
  | list all inductionHypothesis =>
      have each := writeFaultItems?_eq_none_iff.mp free
      have eachWhole := halfOfItems?_eq_none_iff.mp whole
      exact .list fun item member => inductionHypothesis item member (each item member) (eachWhole item member)
  | mapping named all inductionHypothesis =>
      have each := writeFaultEntries?_eq_none_iff.mp free
      have eachWhole := halfOfEntries?_eq_none_iff.mp whole
      exact .mapping named fun entry member =>
        inductionHypothesis entry member (each entry member).2 (eachWhole entry member).2

/-- A property that texts have, and that a list or a mapping has if its parts have it. -/
structure Partwise (ofKey : Scalar → Prop) (holds : Value → Prop) : Prop where
  name : ∀ name, ofKey (.text name)
  text : ∀ name, holds (.text name)
  list_iff : ∀ items : List Value, holds (.list items) ↔ ∀ item ∈ items, holds item
  mapping_iff : ∀ entries : Entries,
    holds (.mapping entries) ↔ ∀ entry ∈ entries, ofKey entry.1 ∧ holds entry.2

namespace Partwise

variable {ofKey : Scalar → Prop} {holds : Value → Prop}

/-- Having no lone half is such a property. -/
theorem half : Partwise (fun key => key.half? = none) (fun value => value.half? = none) :=
  ⟨fun _ => rfl, fun _ => rfl, fun _ => halfOfItems?_eq_none_iff, fun _ => halfOfEntries?_eq_none_iff⟩

/-- So is having no part without a JSON form. -/
theorem writeFault (plainDates : Bool) :
    Partwise (fun key => keyFault? key = none) (fun value => writeFault? plainDates value = none) :=
  ⟨fun _ => rfl, fun _ => rfl, fun _ => writeFaultItems?_eq_none_iff, fun _ => writeFaultEntries?_eq_none_iff⟩

/-- Two such properties together are one. -/
theorem and {also : Scalar → Prop} {moreover : Value → Prop} (first : Partwise ofKey holds)
    (second : Partwise also moreover) :
    Partwise (fun key => ofKey key ∧ also key) (fun value => holds value ∧ moreover value) where
  name name := ⟨first.name name, second.name name⟩
  text name := ⟨first.text name, second.text name⟩
  list_iff items := by rw [first.list_iff, second.list_iff, ← forall₂_and]
  mapping_iff entries := by
    rw [first.mapping_iff, second.mapping_iff, ← forall₂_and]
    simp only [and_and_and_comm]

/-- A list of texts has the property. -/
theorem texts (partwise : Partwise ofKey holds) (items : List String) : holds (.texts items) := by
  refine (partwise.list_iff _).mpr fun item member => ?_
  obtain ⟨name, _, rfl⟩ := List.mem_map.mp member
  exact partwise.text name

/-- A record has the property if its fields have it. -/
theorem record (partwise : Partwise ofKey holds) {fields : List (String × Value)}
    (each : ∀ field ∈ fields, holds field.2) : holds (.record fields) := by
  refine (partwise.mapping_iff _).mpr fun entry member => ?_
  obtain ⟨field, inside, rfl⟩ := List.mem_map.mp member
  exact ⟨partwise.name field.1, each field inside⟩

/-- The value under a key of a mapping that has the property has it. -/
theorem of_get? (partwise : Partwise ofKey holds) (has : holds (.mapping entries))
    (found : entries.get? key = some value) : holds value := by
  obtain ⟨entry, present, rfl⟩ := Option.map_eq_some_iff.mp found
  exact ((partwise.mapping_iff entries).mp has entry (List.mem_of_find?_eq_some present)).2

/-- Putting what has the property under a key that has it keeps it. -/
theorem insert (partwise : Partwise ofKey holds) (before : holds (.mapping entries)) (ofThis : ofKey key)
    (ofValue : holds value) : holds (.mapping (entries.insert key value)) := by
  refine (partwise.mapping_iff _).mpr fun entry member => ?_
  have each := (partwise.mapping_iff _).mp before
  rcases Entries.mem_insert member with ⟨same, rfl | known⟩ | old
  · exact ⟨ofThis, same ▸ ofValue⟩
  · obtain ⟨present, inside, equal⟩ := List.mem_map.mp known
    exact ⟨equal ▸ (each present inside).1, same ▸ ofValue⟩
  · exact each entry old

/-- Laying a mapping that has the property over another keeps it. -/
theorem overlay {lower upper : Entries} (partwise : Partwise ofKey holds) (before : holds (.mapping lower))
    (added : holds (.mapping upper)) : holds (.mapping (lower.overlay upper)) := by
  have each := (partwise.mapping_iff _).mp added
  induction upper generalizing lower with
  | nil => exact before
  | cons entry rest inductionHypothesis =>
      obtain ⟨here, others⟩ := List.forall_mem_cons.mp each
      rw [Entries.overlay_cons]
      exact inductionHypothesis (partwise.insert before here.1 here.2) ((partwise.mapping_iff _).mpr others) others

end Partwise

/-- A value has a JSON form that a file can hold. -/
structure HasForm (plainDates : Bool) (value : Value) : Prop where
  writable : writeFault? plainDates value = none
  whole : value.half? = none

/-- What has no form has a part that is not written, or else a lone half. -/
theorem not_hasForm_iff : ¬HasForm plainDates value
    ↔ writeFault? plainDates value ≠ none
      ∨ writeFault? plainDates value = none ∧ ∃ first, value.half? = some first := by
  constructor
  · intro unformed
    by_cases writable : writeFault? plainDates value = none
    · exact .inr ⟨writable, Option.ne_none_iff_exists'.mp fun whole => unformed ⟨writable, whole⟩⟩
    · exact .inl writable
  · rintro (faulty | ⟨_, _, half⟩) form
    · exact faulty form.writable
    · cases half.symm.trans form.whole

namespace HasForm

/-- What a document can hold has a form. -/
theorem of_isDocument (document : IsDocument value) : HasForm plainDates value :=
  ⟨writeFault?_of_isDocument document, half?_of_isDocument document⟩

/-- What has a form is written. -/
theorem write_eq {layout : Layout} (form : HasForm true value) :
    write layout value = .ok (String.ofList (print layout 0 value)) := by
  simp only [write, encoded, form.writable, form.whole]

/-- A form is a matter of the parts. -/
theorem partwise (plainDates : Bool) :
    Partwise (fun key => keyFault? key = none ∧ key.half? = none) (HasForm plainDates) := by
  have both := (Partwise.writeFault plainDates).and Partwise.half
  have same : (fun value => writeFault? plainDates value = none ∧ value.half? = none) = HasForm plainDates :=
    funext fun value => propext ⟨fun parts => ⟨parts.1, parts.2⟩, fun form => ⟨form.writable, form.whole⟩⟩
  rwa [same] at both

end HasForm

/-! ## Reading -/

/-- An integer is not too long if it lies below the first one that is. -/
theorem isLong_eq_false_iff {value : Int} : isLong value = false ↔ value.natAbs < 10 ^ maxDigits := by
  unfold isLong
  -- The power is never to be computed.
  generalize maxDigits = limit
  rw [decide_eq_false_iff_not, Nat.not_le]
  rfl

/-- An integer of at most the allowed number of digits is not too long. -/
theorem isLong_digitsValue {digits : List Char} (ascii : ∀ digit ∈ digits, isDigit digit)
    (short : digits.length ≤ maxDigits) (negative : Bool) :
    isLong (if negative then -Int.ofNat (digitsValue digits) else Int.ofNat (digitsValue digits))
      = false := by
  have size : (if negative then -Int.ofNat (digitsValue digits)
      else Int.ofNat (digitsValue digits)).natAbs = digitsValue digits := by
    cases negative <;> simp
  have bound : digitsValue digits < 10 ^ maxDigits :=
    (digitsValue_lt ascii).trans_le (Nat.pow_le_pow_right (by decide) short)
  exact isLong_eq_false_iff.mpr (size.trans_lt bound)

/-- The digits before the point are digits. -/
theorem isDigit_of_mem_readWhole {text : List Char} {digit : Char}
    (member : digit ∈ (readWhole text).1) : isDigit digit := by
  unfold readWhole at member
  split at member
  · obtain rfl : digit = '0' := by simpa using member
    decide
  · exact List.mem_takeWhile_imp member

/-- A number that is read is no integer beyond the allowed length. -/
theorem isPlain_of_readNumber {negative : Bool} {text rest : List Char} {content : Scalar}
    (read : readNumber negative text = some (.scalar content, rest)) : IsPlain content := by
  unfold readNumber at read
  dsimp only at read
  split at read
  next => cases read
  next =>
    split at read
    next =>
      split at read
      next long => simp at read
      next short =>
        obtain ⟨rfl, _⟩ : _ = content ∧ _ = rest := by simpa using read
        exact isLong_digitsValue (fun _ => isDigit_of_mem_readWhole) (by omega) negative
    next =>
      obtain ⟨rfl, _⟩ : _ = content ∧ _ = rest := by simpa using read
      trivial

/-- The words stand for plain values. -/
theorem isPlain_of_mem_words {word : List Char × Scalar} (member : word ∈ words) :
    IsPlain word.2 := by
  simp only [words, List.mem_cons, List.not_mem_nil, or_false] at member
  rcases member with rfl | rfl | rfl | rfl | rfl | rfl <;> trivial

/-- A scalar that is read is plain. -/
theorem isPlain_of_readToken {first : Char} {rest after : List Char} {content : Scalar}
    (read : readToken first rest = (.scalar content, after)) : IsPlain content := by
  rw [readToken.eq_def] at read
  split at read
  all_goals try (simp only [Prod.mk.injEq, reduceCtorEq, false_and] at read)
  · split at read
    next pieces _ _ =>
      unfold Token.ofPieces at read
      split at read <;> cases read
    next => cases read
  · split at read
    next word value found =>
      obtain ⟨rfl, _⟩ : value = content ∧ _ = after := by simpa using read
      exact isPlain_of_mem_words (List.mem_of_find?_eq_some found)
    next =>
      generalize number : (if first == '-' then readNumber true rest
        else readNumber false (first :: rest)) = found at read
      cases found with
      | none => simp at read
      | some placed =>
          obtain rfl : placed = (.scalar content, after) := by simpa using read
          split at number <;> exact isPlain_of_readNumber number

/-- All scalars among the tokens of a text are plain. -/
theorem isPlain_of_mem_tokens {text : List Char} {content : Scalar} {remaining : Nat}
    (member : ⟨.scalar content, remaining⟩ ∈ tokens text) : IsPlain content := by
  fun_induction tokens text with
  | case1 => cases member
  | case2 text first rest split found inductionHypothesis =>
      rcases List.mem_cons.mp member with same | later
      · exact isPlain_of_readToken (Prod.ext (Placed.mk.inj same).1.symm rfl)
      · split at later
        next shorter => exact inductionHypothesis shorter later
        next => cases later

/-- A value as reading gives it: like that of a document, but texts and keys may be torn. -/
inductive IsReading : Value → Prop where
  | plain {content : Scalar} (isPlain : IsPlain content) : IsReading (.scalar content)
  | torn {content : TornText} : IsReading (.torn content)
  | list {items : List Value} (all : ∀ item ∈ items, IsReading item) : IsReading (.list items)
  | mapping {entries : Entries} (differ : entries.KeysDiffer) (names : ∀ key ∈ entries.keys, key.IsName)
      (all : ∀ entry ∈ entries, IsReading entry.2) : IsReading (.mapping entries)

namespace IsReading

/-- Without entries there is nothing that reading does not give. -/
theorem empty : IsReading (.mapping []) := .mapping List.Pairwise.nil (List.forall_mem_nil _) (List.forall_mem_nil _)

/-- Putting what reading gives under a name keeps a mapping that reading gives. -/
theorem insert (before : IsReading (.mapping entries)) (isName : key.IsName) (reading : IsReading value) :
    IsReading (.mapping (entries.insert key value)) := by
  cases before with
  | mapping differ names all =>
      refine .mapping differ.insert (fun other member => ?_) fun entry member => ?_
      · rcases Entries.mem_or_eq_of_mem_keys_insert member with known | rfl
        · exact names other known
        · exact isName
      · rcases Entries.mem_insert member with ⟨same, _⟩ | old
        · rwa [same]
        · exact all entry old

/-- Names that differ are distinct texts if none has a lone half. -/
theorem named_of_half? (differ : entries.KeysDiffer) (names : ∀ key ∈ entries.keys, key.IsName)
    (whole : (Value.mapping entries).half? = none) : entries.Named := by
  refine differ.named fun key member => ?_
  obtain ⟨entry, inside, rfl⟩ := List.mem_map.mp member
  have isName := names entry.1 member
  have noHalf := (halfOfEntries?_eq_none_iff.mp whole entry inside).1
  cases same : entry.1 with
  | text name => exact ⟨name, rfl⟩
  | torn name => rw [same] at noHalf; cases noHalf
  | _ => rw [same] at isName; exact isName.elim

/-- What reading gives without a lone half is what a document can hold. -/
theorem isDocument (reading : IsReading value) (whole : value.half? = none) : IsDocument value := by
  induction reading with
  | plain isPlain => exact .scalar isPlain
  | torn => cases whole
  | list all inductionHypothesis =>
      have each := halfOfItems?_eq_none_iff.mp whole
      exact .list fun item member => inductionHypothesis item member (each item member)
  | mapping differ names all inductionHypothesis =>
      have each := halfOfEntries?_eq_none_iff.mp whole
      exact .mapping (named_of_half? differ names whole) fun entry member =>
        inductionHypothesis entry member (each entry member).2

/-- What reading gives has no part without a JSON form. -/
theorem writeFault? (reading : IsReading value) : Json.writeFault? plainDates value = none := by
  induction reading with
  | @plain content isPlain =>
      cases content with
      | moment moment => exact isPlain.elim
      | int value => simpa [Json.writeFault?, IsPlain] using isPlain
      | _ => rfl
  | torn => rfl
  | list all inductionHypothesis => exact writeFaultItems?_eq_none_iff.mpr inductionHypothesis
  | mapping differ names all inductionHypothesis =>
      refine writeFaultEntries?_eq_none_iff.mpr fun entry member =>
        ⟨?_, inductionHypothesis entry member⟩
      have isName := names entry.1 (List.mem_map_of_mem member)
      cases same : entry.1 with
      | text name => rfl
      | torn name => rfl
      | _ => rw [same] at isName; exact isName.elim

/-- The value under a key of a mapping that reading gives is given by reading. -/
theorem of_get? (reading : IsReading (.mapping entries)) (found : entries.get? key = some value) :
    IsReading value := by
  cases reading with
  | mapping differ names all =>
      obtain ⟨entry, present, rfl⟩ := Option.map_eq_some_iff.mp found
      exact all entry (List.mem_of_find?_eq_some present)

/-- The mappings that reading gives are dictionaries. -/
theorem keyed (reading : IsReading value) : value.Keyed := by
  induction reading with
  | plain | torn => exact .scalar
  | list all inductionHypothesis => exact .list inductionHypothesis
  | mapping differ names all inductionHypothesis => exact .mapping differ inductionHypothesis

end IsReading

/-- An open collection holds what reading gives. -/
def Frame.HoldsReadings : Frame → Prop
  | .items done => ∀ item ∈ done, IsReading item
  | .entries done => IsReading (.mapping done)
  | .entry done name => IsReading (.mapping done) ∧ name.IsName

/-- All open collections, the name that is next and the result are what reading gives. -/
structure Machine.HoldsReadings (machine : Machine) : Prop where
  stack : ∀ frame ∈ machine.stack, frame.HoldsReadings
  name : ∀ name, machine.mode = .colon name → name.IsName
  result : ∀ value, machine.mode = .done value → IsReading value

variable {machine next : Machine} {stack : List Frame} {token : Token}

/-- While a value is awaited there is no name and no result. -/
theorem Machine.holdsReadings_of_stack {mode : Mode} (open' : ∀ frame ∈ stack, frame.HoldsReadings)
    (nameless : ∀ name, mode ≠ .colon name) (going : ∀ value, mode ≠ .done value) :
    Machine.HoldsReadings ⟨stack, mode⟩ :=
  ⟨open', fun name same => absurd same (nameless name), fun value same => absurd same (going value)⟩

/-- Delivering a value keeps the invariant. -/
theorem Machine.holdsReadings_deliver (open' : ∀ frame ∈ stack, frame.HoldsReadings)
    (reading : IsReading value) : (deliver stack value).HoldsReadings := by
  cases stack with
  | nil => exact ⟨open', nofun, fun other same => Mode.done.inj same ▸ reading⟩
  | cons frame outer =>
      obtain ⟨inner, rest⟩ := List.forall_mem_cons.mp open'
      cases frame with
      | items done =>
          exact holdsReadings_of_stack
            (List.forall_mem_cons.mpr ⟨List.forall_mem_cons.mpr ⟨reading, inner⟩, rest⟩) nofun nofun
      | entries done => exact holdsReadings_of_stack (List.forall_mem_cons.mpr ⟨inner, rest⟩) nofun nofun
      | entry done name =>
          exact holdsReadings_of_stack
            (List.forall_mem_cons.mpr ⟨inner.1.insert inner.2 reading, rest⟩) nofun nofun

/-- Taking a value keeps the invariant. -/
theorem Machine.holdsReadings_takeValue (open' : ∀ frame ∈ stack, frame.HoldsReadings)
    (plain : ∀ content, token = .scalar content → IsPlain content)
    (taken : takeValue stack token = .ok next) : next.HoldsReadings := by
  cases token with
  | openMapping =>
      obtain rfl := Except.ok.inj taken
      exact holdsReadings_of_stack (List.forall_mem_cons.mpr ⟨IsReading.empty, open'⟩) nofun nofun
  | openList =>
      obtain rfl := Except.ok.inj taken
      exact holdsReadings_of_stack (List.forall_mem_cons.mpr ⟨List.forall_mem_nil _, open'⟩) nofun nofun
  | text content =>
      obtain rfl := Except.ok.inj taken
      exact holdsReadings_deliver open' (.plain trivial)
  | torn content =>
      obtain rfl := Except.ok.inj taken
      exact holdsReadings_deliver open' .torn
  | scalar content =>
      obtain rfl := Except.ok.inj taken
      exact holdsReadings_deliver open' (.plain (plain content rfl))
  | _ => cases taken

/-- Taking a name keeps the invariant. -/
theorem Machine.holdsReadings_takeName (open' : ∀ frame ∈ stack, frame.HoldsReadings)
    (taken : takeName stack token = .ok next) : next.HoldsReadings := by
  cases token with
  | text name =>
      obtain rfl := Except.ok.inj taken
      exact ⟨open', fun other same => Mode.colon.inj same ▸ trivial, nofun⟩
  | torn name =>
      obtain rfl := Except.ok.inj taken
      exact ⟨open', fun other same => Mode.colon.inj same ▸ trivial, nofun⟩
  | _ => cases taken

/-- One token keeps the invariant. -/
theorem Machine.HoldsReadings.step (holds : machine.HoldsReadings)
    (plain : ∀ content, token = .scalar content → IsPlain content)
    (stepped : machine.step token = .ok next) : next.HoldsReadings := by
  obtain ⟨stack, mode⟩ := machine
  have open' : ∀ frame ∈ stack, frame.HoldsReadings := holds.stack
  have named : ∀ name, mode = .colon name → name.IsName := holds.name
  unfold Machine.step at stepped
  dsimp only at stepped
  split at stepped
  -- A value, or the first item of a list that is not closed at once.
  case h_1 | h_3 => exact holdsReadings_takeValue open' plain stepped
  -- The name of an entry.
  case h_5 | h_6 => exact holdsReadings_takeName open' stepped
  -- The end of an empty collection.
  case h_2 =>
    obtain rfl := Except.ok.inj stepped
    exact holdsReadings_deliver (List.forall_mem_cons.mp open').2 (.list (List.forall_mem_nil _))
  case h_4 =>
    obtain rfl := Except.ok.inj stepped
    exact holdsReadings_deliver (List.forall_mem_cons.mp open').2 IsReading.empty
  -- A colon or a comma: the innermost collection stays open.
  case h_7 name _ _ =>
    obtain rfl := Except.ok.inj stepped
    obtain ⟨inner, outer⟩ := List.forall_mem_cons.mp open'
    exact holdsReadings_of_stack (List.forall_mem_cons.mpr ⟨⟨inner, named name rfl⟩, outer⟩) nofun nofun
  case h_9 | h_10 =>
    obtain rfl := Except.ok.inj stepped
    obtain ⟨inner, outer⟩ := List.forall_mem_cons.mp open'
    exact holdsReadings_of_stack (List.forall_mem_cons.mpr ⟨inner, outer⟩) nofun nofun
  -- The end of a collection with parts.
  case h_11 =>
    obtain rfl := Except.ok.inj stepped
    obtain ⟨items, outer⟩ := List.forall_mem_cons.mp open'
    exact holdsReadings_deliver outer (.list fun item member => items item (List.mem_reverse.mp member))
  case h_12 =>
    obtain rfl := Except.ok.inj stepped
    obtain ⟨entries, outer⟩ := List.forall_mem_cons.mp open'
    exact holdsReadings_deliver outer entries
  case h_8 | h_13 | h_14 => cases stepped

/-- A run that gives a value gives what reading gives. -/
theorem Machine.HoldsReadings.run {length : Nat} {placed : List Placed}
    (holds : machine.HoldsReadings)
    (plain : ∀ content remaining, ⟨.scalar content, remaining⟩ ∈ placed → IsPlain content)
    (ran : machine.run length placed = .ok value) : IsReading value := by
  induction placed generalizing machine with
  | nil =>
      rw [Machine.run, Machine.finish] at ran
      split at ran
      case h_1 result final =>
        obtain rfl : result = value := by simpa [Except.mapError] using ran
        exact holds.result result final
      all_goals cases ran
  | cons first rest inductionHypothesis =>
      obtain ⟨token, remaining⟩ := first
      rw [Machine.run] at ran
      split at ran
      next after stepped =>
        refine inductionHypothesis (holds.step ?_ stepped) ?_ ran
        · intro content same
          exact plain content remaining (by simp [same])
        · intro content place member
          exact plain content place (List.mem_cons_of_mem _ member)
      next => cases ran

/-- What is read is like a value of a document, but may have lone halves. -/
theorem isReading_of_parse {text : List Char} (read : parse text = .ok value) :
    IsReading value := by
  have start : Machine.start.HoldsReadings :=
    Machine.holdsReadings_of_stack (List.forall_mem_nil _) nofun nofun
  unfold parse at read
  split at read
  · cases read
  · exact start.run (fun _ _ => isPlain_of_mem_tokens) read

end Scaffold.Json
