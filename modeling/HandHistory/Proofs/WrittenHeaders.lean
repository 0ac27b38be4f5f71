import HandHistory.Decimal.Whole
import HandHistory.Proofs.Anchors
import HandHistory.Proofs.Written
import HandHistory.Room

/-!
# Written headers

The first line of a hand, as data: an identifier, what is played and for what, and a date.
The fields of a header have few characters in common with the anchors between them, and
the lemmas of this module say which; that is why a field is never taken for an anchor.
What the date looks like does not matter, as long as it is read as one.
-/

namespace HandHistory.Written

open Text

/-! ## Words of one kind of characters -/

/-- An identifier without blanks. -/
structure Identifier where
  text : Text
  named : text ≠ []
  solid : ∀ c ∈ text, isBlank c = false

/-- A run of digits. -/
structure Digits where
  text : Text
  named : text ≠ []
  digits : ∀ c ∈ text, Numeral.isDigit c = true

/-- Letters of Roman numerals, in any order. -/
structure RomanLetters where
  text : Text
  letters : ∀ c ∈ text, c ∈ "IVXLCDM".toList

theorem trimBlank_eq_self {text : Text} (solid : ∀ c ∈ text, isBlank c = false) :
    trimBlank text = text := by
  have front : ∀ {text : Text}, (∀ c ∈ text, isBlank c = false) →
      text.dropWhile isBlank = text := by
    intro text solid
    cases text with
    | nil => rfl
    | cons c rest =>
      exact List.dropWhile_cons_of_neg (by simp [solid c List.mem_cons_self])
  rw [trimBlank, trimBy, trimEndBy, front solid,
    front fun c inside => solid c (List.mem_reverse.1 inside), List.reverse_reverse]

namespace Identifier

variable (id : Identifier)

theorem trimBlank_text : trimBlank id.text = id.text := trimBlank_eq_self id.solid

theorem space_not_mem : ' ' ∉ id.text := fun inside => by cases id.solid ' ' inside

end Identifier

namespace Digits

variable (n : Digits)

theorem not_mem {c : Char} (other : Numeral.isDigit c = false) : c ∉ n.text := by
  intro inside
  rw [n.digits c inside] at other
  cases other

/-- Digits identify a hand as other words do. -/
def toIdentifier : Identifier :=
  ⟨n.text, n.named, fun c inside => isBlank_of_digit (n.digits c inside)⟩

/-- What digits are read as where a word of thirty-two bits is made of them. -/
def word32 : Nat := min (Numeral.ofDigits n.text) (2 ^ 32 - 1)

theorem trimLine_text : trimLine n.text = n.text := by
  have solid : ∀ c ∈ n.text, isLineBlank c = false := by
    intro c inside
    cases blank : isLineBlank c with
    | false => rfl
    | true => exact (isBlank_of_isLineBlank blank).symm.trans (isBlank_of_digit (n.digits c inside))
  obtain ⟨c, rest, same⟩ := List.exists_cons_of_ne_nil n.named
  have last := List.dropLast_concat_getLast n.named
  exact trimLine_eq_self ⟨c, rest, same, solid c (same ▸ List.mem_cons_self)⟩
    ⟨_, _, last.symm, solid _ (List.getLast_mem n.named)⟩

theorem atHead_text :
    Amount.atHead n.text = pure (Decimal.toFloat ⟨Numeral.ofDigits n.text, 0⟩) := by
  have number := @Chips.leading?_number n.text [] [] n.named n.digits (by simp) rfl (by simp)
  rw [if_pos rfl, List.append_nil, List.append_nil] at number
  rw [Amount.atHead, n.trimLine_text, Chips.replace_digits n.digits, number, Decimal.ofDigits,
    List.append_nil]
  rfl

end Digits

namespace RomanLetters

variable (numeral : RomanLetters)

theorem not_mem {c : Char} (other : c ∉ "IVXLCDM".toList) : c ∉ numeral.text :=
  fun inside => other (numeral.letters c inside)

theorem isBlank_eq_false : ∀ c ∈ numeral.text, isBlank c = false := by
  have solid : "IVXLCDM".toList.all (fun c => !isBlank c) = true := by decide
  intro c inside
  simpa using List.all_eq_true.1 solid c (numeral.letters c inside)

end RomanLetters

/-! ## Labels -/

/-- Whether a character may stand in a word of a label. -/
def isLabelLetter (c : Char) : Bool := c.isAlphanum || c == '\''

/-- The label of a game: words of letters, digits and apostrophes. -/
structure Label where
  words : List Text
  named : words ≠ []
  spelled : ∀ word ∈ words, word ≠ [] ∧ ∀ c ∈ word, isLabelLetter c = true
  noLevel : has "Level" (join [' '] words) = false

namespace Label

variable (label : Label)

def text : Text := join [' '] label.words

theorem not_mem {c : Char} (noSpace : c ≠ ' ') (noLetter : isLabelLetter c = false) :
    c ∉ label.text := by
  intro inside
  rcases mem_join inside with space | ⟨word, hword, inside⟩
  · exact noSpace (List.mem_singleton.1 space)
  · rw [(label.spelled word hword).2 c inside] at noLetter
    cases noLetter

end Label

/-! ## Blinds -/

/-- Small and big blind, behind antes. -/
structure Blinds where
  antes : List Chips
  small : Chips
  big : Chips

namespace Blinds

variable (blinds : Blinds)

def amounts : List Chips := blinds.antes ++ [blinds.small, blinds.big]

def text : Text := join ['/'] (blinds.amounts.map Chips.text)

theorem not_mem {c : Char} (noSlash : c ≠ '/') (noDigit : Numeral.isDigit c = false)
    (other : c ∉ ['$', '€', '£', ',', '.']) : c ∉ blinds.text := by
  intro inside
  rcases mem_join inside with slash | ⟨piece, hpiece, inside⟩
  · exact noSlash (List.mem_singleton.1 slash)
  · obtain ⟨chips, -, rfl⟩ := List.mem_map.1 hpiece
    exact chips.not_mem noDigit other inside

/-- The last two amounts of a group are its blinds. -/
theorem blinds_text : Amount.blinds blinds.text = (blinds.small.value, blinds.big.value) := by
  have whole : ∀ piece ∈ blinds.amounts.map Chips.text, '/' ∉ piece := by
    intro piece hpiece
    obtain ⟨chips, -, rfl⟩ := List.mem_map.1 hpiece
    exact chips.not_mem (by decide) (by decide)
  have some : blinds.amounts.map Chips.text ≠ [] := by simp [amounts]
  have value : ∀ chips : Chips, (Amount.ofToken? (trimBlank chips.text)).getD 0 = chips.value := by
    intro chips
    rw [trimBlank_eq_self fun c => chips.isBlank_eq_false, chips.ofToken?_text]
    rfl
  rw [Amount.blinds, text]
  rw [fields_join some whole, amounts]
  simp [value]

end Blinds

/-! ## Buy-ins -/

/-- A part of a buy-in, with blanks around it. -/
structure Share where
  before : Text
  chips : Chips
  after : Text
  blankBefore : ∀ c ∈ before, isBlank c = true
  blankAfter : ∀ c ∈ after, isBlank c = true

/-- A buy-in is a sum of shares. -/
structure BuyIn where
  shares : List Share
  some : shares ≠ []

namespace Share

variable (share : Share)

def text : Text := share.before ++ share.chips.text ++ share.after

theorem mem_text {c : Char} (inside : c ∈ share.text) :
    isBlank c = true ∨ Numeral.isDigit c = true ∨ c ∈ ['$', '€', '£', ',', '.'] := by
  rcases List.mem_append.1 inside with inside | inside
  · rcases List.mem_append.1 inside with inside | inside
    · exact Or.inl (share.blankBefore c inside)
    · exact Or.inr (share.chips.mem_text inside)
  · exact Or.inl (share.blankAfter c inside)

theorem numeric_append (front rest : Text) :
    Amount.numeric (front ++ rest) = Amount.numeric front ++ Amount.numeric rest := by
  rw [Amount.numeric, Chips.replace_append, List.filter_append]
  rfl

theorem numeric_of_blank {text : Text} (blank : ∀ c ∈ text, isBlank c = true) :
    Amount.numeric text = [] := by
  rw [Amount.numeric, List.filter_eq_nil_iff]
  intro c inside
  obtain ⟨d, hd, rfl⟩ := List.mem_map.1 inside
  have blankD := blank d hd
  have noComma : d ≠ ',' := by
    rintro rfl
    cases blankD
  have noPoint : d ≠ '.' := by
    rintro rfl
    cases blankD
  have noDigit : Numeral.isDigit d = false := by
    cases digit : Numeral.isDigit d with
    | false => rfl
    | true =>
      rw [isBlank_of_digit digit] at blankD
      cases blankD
  simp [noComma, noPoint, noDigit]

theorem numeric_of_digits {digits : Text} (all : ∀ c ∈ digits, Numeral.isDigit c = true) :
    Amount.numeric digits = digits := by
  rw [Amount.numeric, Chips.replace_digits all]
  exact List.filter_eq_self.2 fun c inside => by simp [all c inside]

/-- What is left of chips without their signs. -/
theorem numeric_chips (chips : Chips) : Amount.numeric chips.text =
    chips.whole ++ ((if chips.fraction = [] then [] else '.' :: chips.fraction) ++ []) := by
  have sign : ∀ sign : Sign, Amount.numeric sign.text = [] := by
    intro sign
    cases sign <;> rfl
  have fraction : Amount.numeric chips.fractionText =
      if chips.fraction = [] then [] else '.' :: chips.fraction := by
    rw [Amount.numeric, chips.replace_fractionText]
    split
    · rfl
    · have kept := numeric_of_digits chips.fraction_digits
      rw [Amount.numeric, Chips.replace_digits chips.fraction_digits] at kept
      rw [List.filter_cons_of_pos (by decide), kept]
  rw [Chips.text, numeric_append, numeric_append, numeric_append, sign, sign, fraction,
    numeric_of_digits chips.whole_digits, List.nil_append]

/-- A share is read as its chips. -/
theorem buyInPart_text : Amount.buyInPart share.text = pure share.chips.value := by
  have number : Amount.numeric share.text = Amount.numeric share.chips.text := by
    rw [text, numeric_append, numeric_append, numeric_of_blank share.blankBefore,
      numeric_of_blank share.blankAfter, List.nil_append, List.append_nil]
  rw [Amount.buyInPart, number, numeric_chips,
    Chips.leading?_number share.chips.whole_ne_nil share.chips.whole_digits
      share.chips.fraction_digits rfl (by simp)]
  rfl

end Share

namespace BuyIn

variable (buyIn : BuyIn)

def text : Text := join ['+'] (buyIn.shares.map Share.text)

theorem text_ne_nil : buyIn.text ≠ [] := by
  obtain ⟨share, shares, same⟩ := List.exists_cons_of_ne_nil buyIn.some
  have named : share.text ≠ [] := by simp [Share.text, share.chips.text_ne_nil]
  rw [text, same, List.map_cons]
  cases shares with
  | nil => exact named
  | cons next shares => simp [join, named]

/-- The sum of the shares, added from the left. -/
def value : Float := buyIn.shares.foldl (fun sum share => sum + share.chips.value) 0

theorem not_mem {c : Char} (noPlus : c ≠ '+') (solid : isBlank c = false)
    (noDigit : Numeral.isDigit c = false) (other : c ∉ ['$', '€', '£', ',', '.']) :
    c ∉ buyIn.text := by
  intro inside
  rcases mem_join inside with plus | ⟨piece, hpiece, inside⟩
  · exact noPlus (List.mem_singleton.1 plus)
  · obtain ⟨share, -, rfl⟩ := List.mem_map.1 hpiece
    rcases share.mem_text inside with blank | digit | glyph
    · rw [solid] at blank
      cases blank
    · rw [noDigit] at digit
      cases digit
    · exact other glyph

/-- A buy-in is read as its sum, and nothing in it is noted as wrong. -/
theorem buyIn_text : Amount.buyIn buyIn.text = pure buyIn.value := by
  have whole : ∀ piece ∈ buyIn.shares.map Share.text, '+' ∉ piece := by
    intro piece hpiece inside
    obtain ⟨share, -, rfl⟩ := List.mem_map.1 hpiece
    rcases share.mem_text inside with blank | digit | glyph
    · cases blank
    · cases digit
    · revert glyph
      decide
  have some : buyIn.shares.map Share.text ≠ [] := by simpa using buyIn.some
  have sum : ∀ (shares : List Share) (start : Float),
      (shares.map Share.text).foldlM
        (fun sum part => (sum + ·) <$> Amount.buyInPart part) start =
      (pure (shares.foldl (fun sum share => sum + share.chips.value) start) : Logged Float) := by
    intro shares
    induction shares with
    | nil => exact fun start => rfl
    | cons share shares ih =>
      intro start
      rw [List.map_cons, List.foldlM_cons, share.buyInPart_text]
      exact ih (start + share.chips.value)
  rw [Amount.buyIn, text, fields_join some whole]
  exact sum buyIn.shares 0

end BuyIn

/-! ## Deals -/

/-- What every header tells: what is played, for what, and since when. A date is any text
that a reader of dates takes for one. -/
structure Deal (dates : Timestamp.Reader) where
  label : Label
  blinds : Blinds
  date : Text
  start : Timestamp
  dated : Timestamp.leading? dates date = some start
  single : has " - " date = false

namespace Deal

variable {dates : Timestamp.Reader} (deal : Deal dates)

/-- A label, and blinds in parentheses. -/
def game : Text := deal.label.text ++ (" (".toList ++ (deal.blinds.text ++ [')']))

/-- What a deal says of a hand outside of any tournament. -/
def header (handId : Text) : Header where
  handId
  kind := .cash
  tournamentId? := none
  tournamentName? := none
  start := deal.start
  smallBlind := deal.blinds.small.value
  bigBlind := deal.blinds.big.value
  buyIn := 0
  level := 0
  variant := .ofLabel deal.label.text
  limit := .ofLabel deal.label.text

end Deal

end HandHistory.Written
