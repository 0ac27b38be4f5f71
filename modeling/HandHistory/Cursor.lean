import HandHistory.Text.Blank
import HandHistory.Text.Lines

/-!
# Cursors

A cursor walks forward through the lines of one file. It stands in front of the
first line, on a line, or behind the last one, and holds the lines still ahead
of it; there is no way back to a line it has left.
-/

namespace HandHistory

/-- Where a cursor stands. -/
inductive Place where
  | start
  | line (current : Text)
  | finished
  deriving DecidableEq, Repr

structure Cursor where
  file : Text
  /-- How many lines lie behind the cursor. -/
  index : Nat := 0
  place : Place := .start
  /-- The lines ahead of the cursor. -/
  ahead : List Text
  deriving DecidableEq, Repr

namespace Cursor

/-- A cursor in front of the lines of a text. -/
def ofText (file text : Text) : Cursor := { file, ahead := Text.lines text }

/-- The current line, empty where there is none. -/
def current (cursor : Cursor) : Text :=
  match cursor.place with
  | .line current => current
  | .start | .finished => []

def isFinished (cursor : Cursor) : Bool := cursor.place == .finished

/-- The line after the current one. -/
def peek? (cursor : Cursor) : Option Text := cursor.ahead.head?

/-- How many lines lie behind the cursor once it leaves its place. -/
def indexAfter (cursor : Cursor) : Nat :=
  match cursor.place with
  | .start | .finished => cursor.index
  | .line _ => cursor.index + 1

/-- Moves to the next line, or behind the last one. -/
def next (cursor : Cursor) : Cursor :=
  match cursor.ahead with
  | [] => { cursor with index := cursor.indexAfter, place := .finished }
  | line :: ahead => { cursor with index := cursor.indexAfter, place := .line line, ahead }

/-- Moves to the next line; tells whether there is one. -/
def nextLine (cursor : Cursor) : Bool × Cursor := (!cursor.ahead.isEmpty, cursor.next)

/-- Moves on until a line of those ahead satisfies `wanted`. -/
def seekIn (wanted : Text → Bool) (file : Text) (index : Nat) : List Text → Bool × Cursor
  | [] => (false, { file, index, place := .finished, ahead := [] })
  | line :: ahead =>
    if wanted line then (true, { file, index, place := .line line, ahead })
    else seekIn wanted file (index + 1) ahead

/-- Moves to the first line that satisfies `wanted`, the current one included;
without such a line, behind the last one. -/
def seek (wanted : Text → Bool) (cursor : Cursor) : Bool × Cursor :=
  match cursor.place with
  | .line current =>
    if wanted current then (true, cursor)
    else seekIn wanted cursor.file cursor.indexAfter cursor.ahead
  | .start | .finished => seekIn wanted cursor.file cursor.indexAfter cursor.ahead

/-! ## Looking at the current line -/

def startsWith (lead : Text) (cursor : Cursor) : Bool := Text.hasStart lead cursor.current

/-- Whether the current line, blanks at its end aside, ends with a text. -/
def endsWith (tail : Text) (cursor : Cursor) : Bool :=
  Text.hasEnd tail (Text.trimEndBy Text.isBlank cursor.current)

def contains (needle : Text) (cursor : Cursor) : Bool := Text.has needle cursor.current

/-- The first of several texts that the current line contains. -/
def containsAny? (needles : List Text) (cursor : Cursor) : Option Text :=
  needles.find? fun needle => Text.has needle cursor.current

def find? (needle : Text) (cursor : Cursor) : Option Nat := Text.find? needle cursor.current

end Cursor

end HandHistory
