import HandHistory.Error
import HandHistory.Text.Blank

/-!
# Cards

A card is written as a rank letter and a suit letter, `Ah` or `Td`. A slot for
a card may also be free, which is written `none`. Rows of cards have five
slots: a bracket group fills them from the left, and what comes after the fifth
card is never looked at.
-/

namespace HandHistory

inductive Suit where
  | clubs
  | diamonds
  | hearts
  | spades
  deriving DecidableEq, Repr

namespace Suit

/-- All suits, lowest first. -/
def all : List Suit := [.clubs, .diamonds, .hearts, .spades]

/-- The place of a suit in the order of suits. -/
def index : Suit → Nat
  | .clubs => 0
  | .diamonds => 1
  | .hearts => 2
  | .spades => 3

def letter : Suit → Char
  | .clubs => 'c'
  | .diamonds => 'd'
  | .hearts => 'h'
  | .spades => 's'

/-- The suit written with a letter. -/
def ofLetter? (c : Char) : Option Suit := all.find? fun suit => suit.letter == c

theorem ofLetter?_eq_some_iff {c : Char} {s : Suit} : ofLetter? c = some s ↔ c = s.letter := by
  constructor
  · intro found
    have same := List.find?_some found
    exact (beq_iff_eq.1 same).symm
  · rintro rfl
    cases s <;> rfl

end Suit

inductive Rank where
  | two
  | three
  | four
  | five
  | six
  | seven
  | eight
  | nine
  | ten
  | jack
  | queen
  | king
  | ace
  deriving DecidableEq, Repr

namespace Rank

/-- All ranks, lowest first. -/
def all : List Rank :=
  [.two, .three, .four, .five, .six, .seven, .eight, .nine, .ten, .jack, .queen, .king, .ace]

/-- The number of pips, with the court cards and the ace above ten. -/
def pips : Rank → Nat
  | .two => 2
  | .three => 3
  | .four => 4
  | .five => 5
  | .six => 6
  | .seven => 7
  | .eight => 8
  | .nine => 9
  | .ten => 10
  | .jack => 11
  | .queen => 12
  | .king => 13
  | .ace => 14

def letter : Rank → Char
  | .two => '2'
  | .three => '3'
  | .four => '4'
  | .five => '5'
  | .six => '6'
  | .seven => '7'
  | .eight => '8'
  | .nine => '9'
  | .ten => 'T'
  | .jack => 'J'
  | .queen => 'Q'
  | .king => 'K'
  | .ace => 'A'

/-- The rank written with a letter. -/
def ofLetter? (c : Char) : Option Rank := all.find? fun rank => rank.letter == c

theorem ofLetter?_eq_some_iff {c : Char} {r : Rank} : ofLetter? c = some r ↔ c = r.letter := by
  constructor
  · intro found
    have same := List.find?_some found
    exact (beq_iff_eq.1 same).symm
  · rintro rfl
    cases r <;> rfl

end Rank

structure Card where
  rank : Rank
  suit : Suit
  deriving DecidableEq, Repr

/-- One place for a card. -/
abbrev CardSlot := Option Card

/-- The five places of a row of cards. -/
abbrev CardRow := Vector CardSlot 5

namespace Card

def token (card : Card) : Text := [card.rank.letter, card.suit.letter]

/-- Reads a rank letter followed by a suit letter and nothing else. -/
def ofToken (text : Text) : Except TokenError Card :=
  let refusal := .error ⟨.card, text⟩
  match text with
  | [rank, suit] =>
    match Rank.ofLetter? rank, Suit.ofLetter? suit with
    | some rank, some suit => .ok ⟨rank, suit⟩
    | _, _ => refusal
  | _ => refusal

/-- All fifty-two cards, suit by suit. -/
def deck : List Card := Suit.all.flatMap fun suit => Rank.all.map fun rank => ⟨rank, suit⟩

/-- Cards are ordered by rank, and by suit within a rank. -/
def rankOrder (a b : Card) : Bool :=
  a.rank.pips < b.rank.pips || (a.rank.pips == b.rank.pips && a.suit.index ≤ b.suit.index)

theorem ofToken_eq_ok_iff {text : Text} {card : Card} :
    ofToken text = .ok card ↔ text = card.token := by
  constructor
  · intro h
    unfold ofToken at h
    split at h
    · next r s =>
      split at h
      · next rank suit hr hs =>
        cases h
        rw [Rank.ofLetter?_eq_some_iff.1 hr, Suit.ofLetter?_eq_some_iff.1 hs]
        rfl
      · cases h
    · cases h
  · rintro rfl
    simp [ofToken, token, Rank.ofLetter?_eq_some_iff.2 rfl, Suit.ofLetter?_eq_some_iff.2 rfl]

end Card

namespace CardSlot

def token : CardSlot → Text
  | some card => card.token
  | none => "none"

def ofToken (text : Text) : Except TokenError CardSlot :=
  if text = "none".toList then .ok none else some <$> Card.ofToken text

end CardSlot

namespace CardRow

def free : CardRow := Vector.replicate 5 none

/-- The first five slots of a list; missing ones are free. -/
def ofSlots (slots : List CardSlot) : CardRow := Vector.ofFn fun i => (slots[i.val]?).join

/-- Some cards from the left, then free slots. -/
def ofCards (cards : List Card) : CardRow := ofSlots (cards.map some)

/-- The tokens of a bracket group, without the blank ones. -/
def groupTokens (delimiter group : Text) : List Text :=
  ((Text.split delimiter group).map Text.trimBlank).filter fun token => !token.isEmpty

/-- The cards of a bracket group; the first token that is no card fails it. -/
def ofGroup (delimiter group : Text) : Except TokenError CardRow :=
  ofCards <$> ((groupTokens delimiter group).take 5).mapM Card.ofToken

end CardRow

end HandHistory
