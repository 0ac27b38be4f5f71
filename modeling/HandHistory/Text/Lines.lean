import HandHistory.Text

/-!
# Lines

A text is a sequence of lines, each ended by a line feed or by a carriage return
and a line feed; the last one may be without an end, and then keeps a carriage
return of its own. A byte order mark in front of the text belongs to no line.
-/

namespace HandHistory.Text

/-- The text behind a byte order mark, if it begins with one. -/
def withoutMark : Text → Text
  | '\ufeff' :: text => text
  | text => text

/-- A line without the carriage return that belongs to its line feed. -/
def withoutReturn (line : Text) : Text := (stripEnd? "\r" line).getD line

/-- Frees every line that a line feed ends of its carriage return; what follows
the last line feed is a line only if it is not empty. -/
def endLines : List Text → List Text
  | [] => []
  | [last] => if last.isEmpty then [] else [last]
  | line :: others => withoutReturn line :: endLines others

/-- The lines of a text. -/
def lines (text : Text) : List Text := endLines (fields '\n' (withoutMark text))

end HandHistory.Text
