import Redex.Text.Quoted

/-!
# Reading UTF-8

`decode` reads bytes as text and says exactly where and how they fail to be UTF-8. A fault is either
a byte that starts no character, or a character whose bytes are not continued as they should be, or
the end of the bytes in the middle of a character. Bytes are read piece by piece. A character that
the end of a piece cuts short is kept back and put in front of the next piece, or looked at on its
own if there is none; the position in a fault counts from the start of the piece so made.
-/

namespace Redex.Text.Utf8

/-- The ways in which bytes fail to be UTF-8. -/
inductive Reason where
  | startByte
  | continuationByte
  | endOfData
deriving DecidableEq, Repr

/-- The wording of a reason. -/
def Reason.message : Reason → String
  | startByte => "invalid start byte"
  | continuationByte => "invalid continuation byte"
  | endOfData => "unexpected end of data"

/-- Bytes that are not UTF-8: the first of them, where it stands, how many there are, and why. -/
structure Fault where
  byte : UInt8
  position : Nat
  count : Nat
  reason : Reason
deriving DecidableEq, Repr

/-- The wording of a fault. -/
def Fault.message (fault : Fault) : String :=
  let place :=
    if fault.count = 1 then
      "byte 0x" ++ String.ofList (hexDigits 2 fault.byte.toNat) ++ " in position " ++
        toString fault.position
    else
      "bytes in position " ++ toString fault.position ++ "-" ++
        toString (fault.position + fault.count - 1)
  "'utf-8' codec can't decode " ++ place ++ ": " ++ fault.reason.message

/-- The number of bytes of a character by its first byte; none if no character starts with it. -/
def width? (b : UInt8) : Option Nat :=
  if b < 0x80 then some 1
  else if b < 0xC2 then none
  else if b < 0xE0 then some 2
  else if b < 0xF0 then some 3
  else if b < 0xF5 then some 4
  else none

/-- The bytes that may follow a first byte, both ends included. Narrower than all continuation bytes
where a shorter form exists, or where the character would be a surrogate or too large. -/
def secondRange (b : UInt8) : UInt8 × UInt8 :=
  if b = 0xE0 then (0xA0, 0xBF)
  else if b = 0xED then (0x80, 0x9F)
  else if b = 0xF0 then (0x90, 0xBF)
  else if b = 0xF4 then (0x80, 0x8F)
  else (0x80, 0xBF)

/-- How many of the bytes after the first one belong to the same character: the first has to lie in
a range of its own and the others are plain continuation bytes. -/
def continued (range : UInt8 × UInt8) : Nat → List UInt8 → Nat
  | needed + 1, b :: bytes =>
    if range.1 ≤ b && b ≤ range.2 then continued (0x80, 0xBF) needed bytes + 1 else 0
  | _, _ => 0

/-- The code point of a character by its bytes. -/
def codePoint (first : UInt8) (width : Nat) (others : List UInt8) : Nat :=
  let top := if width = 1 then first.toNat else first.toNat % Nat.pow 2 (7 - width)
  others.foldl (fun n b => 64 * n + b.toNat % 64) top

/-- What a piece of bytes holds: characters, and then nothing more, a fault, or a character cut
short by the end. -/
inductive Ending where
  | complete
  | broken (fault : Fault)
  | cutShort (bytes : List UInt8)

/-- Reads a piece of bytes that starts at a position. A surrogate that lacks its last byte at the
end of the piece counts as cut short, like any other character. `fuel` bounds the characters. -/
def readPiece : (fuel position : Nat) → List UInt8 → List Char × Ending
  | 0, _, _ => ([], .complete)
  | _, _, [] => ([], .complete)
  | fuel + 1, position, b :: bytes =>
    match width? b with
    | none => ([], .broken ⟨b, position, 1, .startByte⟩)
    | some width =>
      let found := continued (secondRange b) (width - 1) bytes
      if found = width - 1 then
        let read := readPiece fuel (position + width) (bytes.drop found)
        (Char.ofNat (codePoint b width (bytes.take found)) :: read.1, read.2)
      else if found = bytes.length then ([], .cutShort (b :: bytes))
      else if b = 0xED && bytes.length = 1 && bytes.all (fun c => 0xA0 ≤ c && c ≤ 0xBF) then
        ([], .cutShort (b :: bytes))
      else ([], .broken ⟨b, position, found + 1, .continuationByte⟩)

/-- The fault in the bytes of a character that the end cuts short. -/
def cutFault : List UInt8 → Fault
  | [] => ⟨0, 0, 0, .endOfData⟩
  | b :: bytes =>
    if continued (secondRange b) bytes.length bytes = bytes.length then
      ⟨b, 0, bytes.length + 1, .endOfData⟩
    else ⟨b, 0, 1, .continuationByte⟩

/-- The number of bytes that are read in one piece. -/
def pieceSize : Nat := 8192

/-- Cuts bytes into at most `count` pieces. -/
def pieces : (count : Nat) → List UInt8 → List (List UInt8)
  | 0, _ => []
  | count + 1, bytes => bytes.take pieceSize :: pieces count (bytes.drop pieceSize)

/-- Reads pieces as text; `kept` holds the bytes kept back from the piece before. -/
def decodePieces (kept : List UInt8) : List (List UInt8) → Except Fault (List Char)
  | [] => if kept.isEmpty then .ok [] else .error (cutFault kept)
  | piece :: rest =>
    let bytes := kept ++ piece
    match readPiece bytes.length 0 bytes with
    | (chars, .complete) => return chars ++ (← decodePieces [] rest)
    | (chars, .cutShort kept) => return chars ++ (← decodePieces kept rest)
    | (_, .broken fault) => .error fault

/-- Reads bytes as text. -/
def decode (bytes : List UInt8) : Except Fault (List Char) :=
  decodePieces [] (pieces (bytes.length / pieceSize + 1) bytes)

end Redex.Text.Utf8
