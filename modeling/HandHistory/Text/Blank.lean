import HandHistory.Text

/-!
# Blank characters

Two notions of blank are in use. The wide one is the Unicode property
`White_Space`; words are separated by it, and card and number tokens are freed
from it. The narrow one has six ASCII characters and frees whole lines and
player names, so that a name may begin or end with a no-break space.
-/

namespace HandHistory.Text

/-- The ranges of the Unicode property `White_Space`. -/
def blankRanges : List (Nat × Nat) :=
  [(0x09, 0x0d), (0x20, 0x20), (0x85, 0x85), (0xa0, 0xa0), (0x1680, 0x1680),
   (0x2000, 0x200a), (0x2028, 0x2029), (0x202f, 0x202f), (0x205f, 0x205f),
   (0x3000, 0x3000)]

/-- Whether a character has the property `White_Space`. -/
def isBlank (c : Char) : Bool :=
  blankRanges.any fun (low, high) => low ≤ c.toNat && c.toNat ≤ high

/-- Space, tab, line feed, vertical tab, form feed and carriage return. -/
def isLineBlank (c : Char) : Bool :=
  c == ' ' || c == '\t' || c == '\n' || c == '\x0b' || c == '\x0c' || c == '\r'

/-- Frees both ends of every `White_Space` character. -/
def trimBlank (text : Text) : Text := trimBy isBlank text

/-- Frees both ends of the six ASCII blanks. -/
def trimLine (text : Text) : Text := trimBy isLineBlank text

/-- The maximal runs without a `White_Space` character. -/
def words (text : Text) : List Text :=
  (fieldsBy isBlank text).filter fun word => !word.isEmpty

theorem isBlank_of_isLineBlank {c : Char} (h : isLineBlank c = true) : isBlank c = true := by
  simp only [isLineBlank, Bool.or_eq_true, beq_iff_eq] at h
  rcases h with ((((h | h) | h) | h) | h) | h <;> subst h <;> decide

end HandHistory.Text
