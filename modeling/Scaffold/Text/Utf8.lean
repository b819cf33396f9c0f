import Scaffold.Text.Quoted
import Scaffold.Decimal.Text

/-!
# UTF-8

Texts are stored as UTF-8 bytes.  Bytes that are no UTF-8 are cut into segments: characters, and broken
stretches that each cover the longest start of a sequence that could still have become a character.
-/

namespace Scaffold.Text

/-- Why bytes form no character. -/
inductive Utf8Reason where
  | startByte
  | continuationByte
  | endOfData
  deriving DecidableEq, Repr

/-- A stretch of bytes: one character, or bytes that form none. -/
inductive Utf8Segment where
  | char (value : Char) (size : Nat)
  | broken (reason : Utf8Reason) (size : Nat)
  deriving DecidableEq, Repr

/-- The number of bytes of a segment. -/
def Utf8Segment.size : Utf8Segment → Nat
  | .char _ size => size
  | .broken _ size => size

/-- A byte inside a sequence. -/
def isContinuation (byte : UInt8) : Bool := 0x80 ≤ byte && byte ≤ 0xBF

/-- The lowest and highest second byte after a first byte; they exclude surrogates, overlong forms and
codes beyond the last one. -/
def secondRange (first : UInt8) : UInt8 × UInt8 :=
  if first == 0xE0 then (0xA0, 0xBF)
  else if first == 0xED then (0x80, 0x9F)
  else if first == 0xF0 then (0x90, 0xBF)
  else if first == 0xF4 then (0x80, 0x8F)
  else (0x80, 0xBF)

/-- The number of bytes that a first byte announces; none for a byte that starts no sequence. -/
def announced? (first : UInt8) : Option Nat :=
  if first < 0x80 then some 1
  else if first < 0xC2 then none
  else if first < 0xE0 then some 2
  else if first < 0xF0 then some 3
  else if first < 0xF5 then some 4
  else none

/-- The payload of continuation bytes behind the bits of a first byte. -/
def joinBits (lead : Nat) (bytes : List UInt8) : Nat :=
  bytes.foldl (fun code byte => code * 64 + byte.toNat % 64) lead

/-- How many of the bytes after a first byte fit its sequence. -/
def fitting (first : UInt8) (wanted : Nat) (rest : List UInt8) : Nat :=
  match rest.take wanted with
  | [] => 0
  | second :: others =>
    let (low, high) := secondRange first
    if low ≤ second && second ≤ high then 1 + (others.takeWhile isContinuation).length else 0

/-- The first segment of bytes that begin with `first`. -/
def segmentAt (first : UInt8) (rest : List UInt8) : Utf8Segment :=
  match announced? first with
  | none => .broken .startByte 1
  | some count =>
    let fit := fitting first (count - 1) rest
    if fit == count - 1 then
      let lead := if count == 1 then first.toNat
        else if count == 2 then first.toNat % 32
        else if count == 3 then first.toNat % 16
        else first.toNat % 8
      .char (Char.ofNat (joinBits lead (rest.take (count - 1)))) count
    else if fit == rest.length then .broken .endOfData (fit + 1)
    else .broken .continuationByte (fit + 1)

/-- The segments of a sequence of bytes. -/
def utf8Segments (bytes : List UInt8) : List Utf8Segment :=
  match bytes with
  | [] => []
  | first :: rest =>
    let segment := segmentAt first rest
    segment :: utf8Segments (rest.drop (segment.size - 1))
termination_by bytes.length
decreasing_by
  simp only [List.length_drop, List.length_cons]
  omega

/-- The characters of a sequence of bytes, with one replacement character for each broken stretch. -/
def decodeLossy (bytes : List UInt8) : List Char :=
  (utf8Segments bytes).map fun segment =>
    match segment with
    | .char value _ => value
    | .broken _ _ => '\ufffd'

/-- Where and why bytes are no UTF-8. -/
structure Utf8Fault where
  byte : UInt8
  start : Nat
  size : Nat
  reason : Utf8Reason
  deriving DecidableEq, Repr

/-- The first broken stretch of the segments that start at a position. -/
def firstBroken (bytes : List UInt8) : Nat → List Utf8Segment → Utf8Fault
  | start, [] => ⟨0, start, 0, .endOfData⟩
  | start, .char _ size :: rest => firstBroken bytes (start + size) rest
  | start, .broken reason size :: _ => ⟨bytes.getD start 0, start, size, reason⟩

/-- The wording of a fault: the byte, or the range of several, and the reason. -/
def Utf8Fault.message (fault : Utf8Fault) : String :=
  let reason := match fault.reason with
    | .startByte => "invalid start byte"
    | .continuationByte => "invalid continuation byte"
    | .endOfData => "unexpected end of data"
  let place :=
    if fault.size == 1 then
      "byte 0x" ++ String.ofList (hexDigits 2 fault.byte.toNat) ++ " in position "
        ++ Decimal.intText fault.start
    else
      "bytes in position " ++ Decimal.intText fault.start ++ "-"
        ++ Decimal.intText (fault.start + fault.size - 1)
  "'utf-8' codec can't decode " ++ place ++ ": " ++ reason

/-- The text that bytes store. -/
def decode (bytes : ByteArray) : Except Utf8Fault String :=
  if valid : bytes.IsValidUTF8 then .ok (String.fromUTF8 bytes valid)
  else .error (firstBroken bytes.toList 0 (utf8Segments bytes.toList))

/-- The bytes that store a text. -/
def encode (text : String) : ByteArray := text.toByteArray

@[simp] theorem decode_encode (text : String) : decode (encode text) = .ok text := by
  simp [decode, encode, text.isValidUTF8, String.fromUTF8]

/-- Every form of line end becomes a line feed: the pair of carriage return and line feed, and the
carriage return alone. -/
def unifyLineEnds : List Char → List Char
  | [] => []
  | '\r' :: '\n' :: rest => '\n' :: unifyLineEnds rest
  | '\r' :: rest => '\n' :: unifyLineEnds rest
  | c :: rest => c :: unifyLineEnds rest

end Scaffold.Text
