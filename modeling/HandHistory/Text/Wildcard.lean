import HandHistory.Text

/-!
# Wildcard patterns

A pattern is a text in which every `*` stands for any run of characters, the
empty run included. Matching is greedy and never backs up: the piece before the
first star and the piece behind the last one are anchored, and each piece
between is taken at its leftmost place in what is left.
-/

namespace HandHistory.Text.Wildcard

/-- Finds the pieces one after the other, each at its leftmost place. -/
def findInOrder : List Text → Text → Bool
  | [], _ => true
  | piece :: pieces, text =>
    match cut? piece text with
    | some (_, rest) => findInOrder pieces rest
    | none => false

/-- Whether the whole text has the form that the pattern describes. -/
def isMatch (pattern text : Text) : Bool :=
  match fields '*' pattern with
  | [] => false
  | [whole] => whole == text
  | first :: second :: others =>
    let between := (second :: others).dropLast
    let last := (second :: others).getLastD []
    match stripStart? first text with
    | none => false
    | some rest =>
      match stripEnd? last rest with
      | none => false
      | some middle => findInOrder between middle

end HandHistory.Text.Wildcard
