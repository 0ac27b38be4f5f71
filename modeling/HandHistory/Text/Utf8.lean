import HandHistory.Text

/-!
# Bytes as text

A file is a sequence of bytes and is read as UTF-8. Bytes that are not well
formed do not fail the reading: each longest run of them that could still have
begun a character becomes one replacement character.

The well-formed encodings are a table of byte ranges. A run of bytes begins a
character as long as each byte lies in the range of its place, and the first
byte alone selects the row.
-/

namespace HandHistory.Text.Utf8

/-- The values that one byte of an encoding may have. -/
structure ByteRange where
  low : Nat
  high : Nat
  deriving DecidableEq, Repr

namespace ByteRange

def holds (range : ByteRange) (byte : UInt8) : Bool :=
  range.low ≤ byte.toNat && byte.toNat ≤ range.high

end ByteRange

/-- The range of a byte that continues a character. -/
def continuation : ByteRange := ⟨0x80, 0xbf⟩

/-- The well-formed encodings of characters: neither overlong ones, nor
surrogates, nor numbers beyond the last code point. -/
def rows : List (List ByteRange) :=
  [[⟨0x00, 0x7f⟩],
   [⟨0xc2, 0xdf⟩, continuation],
   [⟨0xe0, 0xe0⟩, ⟨0xa0, 0xbf⟩, continuation],
   [⟨0xe1, 0xec⟩, continuation, continuation],
   [⟨0xed, 0xed⟩, ⟨0x80, 0x9f⟩, continuation],
   [⟨0xee, 0xef⟩, continuation, continuation],
   [⟨0xf0, 0xf0⟩, ⟨0x90, 0xbf⟩, continuation, continuation],
   [⟨0xf1, 0xf3⟩, continuation, continuation, continuation],
   [⟨0xf4, 0xf4⟩, ⟨0x80, 0x8f⟩, continuation, continuation]]

/-- The row that a first byte selects; none for a byte that begins no character. -/
def row? (first : UInt8) : Option (List ByteRange) :=
  rows.find? fun row => row.head?.elim false fun range => range.holds first

/-- The bytes that lie in the ranges of a row, one after the other. -/
def fitting : List ByteRange → List UInt8 → List UInt8
  | range :: row, byte :: bytes =>
    if range.holds byte then byte :: fitting row bytes else []
  | _, _ => []

/-- What a first byte adds to the number of its character: the bits behind its
length mark. -/
def leadBits (length : Nat) (first : UInt8) : Nat :=
  if length = 1 then first.toNat else first.toNat % Nat.pow 2 (7 - length)

/-- The character that the bytes of a whole row encode. -/
def character : List UInt8 → Char
  | [] => '\ufffd'
  | first :: others =>
    Char.ofNat <| others.foldl (fun number byte => 64 * number + byte.toNat % 64)
      (leadBits (others.length + 1) first)

/-- The first piece of a sequence of bytes: the character it begins with, or none
where it begins with no whole one, and the number of bytes the piece takes. -/
def piece (bytes : List UInt8) : Option Char × Nat :=
  match bytes.head?.bind row? with
  | none => (none, 1)
  | some row =>
    let found := fitting row bytes
    if found.length = row.length then (some (character found), found.length)
    else (none, found.length)

/-- The pieces of a sequence of bytes, one after the other; `skip` bytes still
belong to the piece found last. -/
def piecesFrom : (skip : Nat) → List UInt8 → List (Option Char)
  | _, [] => []
  | skip + 1, _ :: bytes => piecesFrom skip bytes
  | 0, byte :: bytes =>
    let (character?, length) := piece (byte :: bytes)
    character? :: piecesFrom (length - 1) bytes

/-- The text of a sequence of bytes, with a replacement character for each piece
that is no character. -/
def decode (bytes : List UInt8) : Text :=
  (piecesFrom 0 bytes).map fun character? => character?.getD '\ufffd'

/-- The text of a sequence of bytes that is well formed throughout. -/
def decode? (bytes : List UInt8) : Option Text := (piecesFrom 0 bytes).mapM id

end HandHistory.Text.Utf8
