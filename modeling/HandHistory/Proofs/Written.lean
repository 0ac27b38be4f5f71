import HandHistory.BodyLine
import HandHistory.Card
import HandHistory.Amount
import HandHistory.Proofs.Words
import Mathlib

/-!
# Written lines

The lines that a room writes about a hand, as data: who, what, for how much. The
text of a line is a function of it, and the lemmas of this module say what kind
of line is read from that text. A name is any word of letters and digits, so it
may be one of the words that the kinds are told apart by; that is why every kind
has to be shown not to be taken for another.

There is one exception. `Dealt to posts [Ah Kd]` is about a player called `posts`,
and reads like a blind.
-/

namespace HandHistory.Written

open Text

/-! ## Names -/

/-- A name in front of what a player does, with or without a colon. -/
def leadOf (name : Text) (colon : Bool) : Text := name ++ if colon then [':'] else []

/-- A trimmed name that does not end with a colon is told of any line that it leads. -/
theorem actorName_leadOf {name : Text} (starts : Starts name) (ends : Ends name)
    (noColon : name.getLast? ≠ some ':') (colon : Bool) :
    BodyLine.actorName (leadOf name colon) = name := by
  have trimmed : trimLine name = name := trimLine_eq_self starts ends
  obtain ⟨front, c, same, -⟩ := ends
  have last : c ≠ ':' := by
    rintro rfl
    exact noColon (by simp [same])
  have stripped : trimEndBy (· == ':') name = name := by
    simp [trimEndBy, same, last]
  cases colon with
  | false => simp [BodyLine.actorName, leadOf, trimmed, stripped]
  | true =>
    have whole : trimLine (name ++ [':']) = name ++ [':'] :=
      trimLine_eq_self (starts.append _) ⟨name, ':', rfl, by decide⟩
    have colonless : trimEndBy (· == ':') (name ++ [':']) = name := by
      simp [trimEndBy, same, last]
    simp [BodyLine.actorName, leadOf, whole, colonless, trimmed]

/-- A word of ASCII letters and digits; `Seat` begins another kind of line. -/
structure Name where
  text : Text
  named : text ≠ []
  alphanumeric : ∀ c ∈ text, c.isAlphanum = true
  ne_seat : text ≠ "Seat".toList

namespace Name

variable (name : Name)

theorem not_mem {c : Char} (other : c.isAlphanum = false) : c ∉ name.text := by
  intro inside
  rw [name.alphanumeric c inside] at other
  cases other

theorem space_not_mem : ' ' ∉ name.text := name.not_mem (by decide)

theorem isLineBlank_eq_false {c : Char} (inside : c ∈ name.text) : isLineBlank c = false := by
  cases blank : isLineBlank c with
  | false => rfl
  | true =>
    refine absurd inside (name.not_mem ?_)
    simp only [isLineBlank, Bool.or_eq_true, beq_iff_eq] at blank
    rcases blank with ((((h | h) | h) | h) | h) | h <;> subst h <;> decide

theorem starts : Starts name.text := by
  obtain ⟨c, rest, same⟩ := List.exists_cons_of_ne_nil name.named
  exact ⟨c, rest, same, name.isLineBlank_eq_false (same ▸ List.mem_cons_self)⟩

theorem ends : Ends name.text := by
  have last := List.dropLast_concat_getLast name.named
  exact ⟨_, _, last.symm, name.isLineBlank_eq_false (List.getLast_mem name.named)⟩

@[simp] theorem trimLine_text : trimLine name.text = name.text :=
  trimLine_eq_self name.starts name.ends

/-- No text that begins with something else than a letter or a digit begins a name. -/
theorem stripStart?_text {c : Char} (other : c.isAlphanum = false) (lead rest : Text) :
    stripStart? (c :: lead) (name.text ++ rest) = none := by
  obtain ⟨d, text, same⟩ := List.exists_cons_of_ne_nil name.named
  have different : c ≠ d := by
    rintro rfl
    exact name.not_mem other (same ▸ List.mem_cons_self)
  simp [same, stripStart?, different]

/-- The name in front of what a player does, with or without a colon. -/
def lead (colon : Bool) : Text := leadOf name.text colon

variable {name} {colon : Bool}

theorem lead_false : name.lead false = name.text := List.append_nil _

theorem space_not_mem_lead : ' ' ∉ name.lead colon := by
  cases colon <;> simp [lead, leadOf, name.space_not_mem]

theorem starts_lead : Starts (name.lead colon) := name.starts.append _

theorem lead_ne_of_colon_not_mem {word : Text} (other : name.text ≠ word)
    (noColon : ':' ∉ word) : name.lead colon ≠ word := by
  cases colon with
  | false => simpa [lead, leadOf] using other
  | true =>
    rintro rfl
    exact noColon (by simp [lead, leadOf])

@[simp] theorem actorName_lead : BodyLine.actorName (name.lead colon) = name.text :=
  actorName_leadOf name.starts name.ends
    (fun last => name.not_mem (by decide) (List.mem_of_getLast? last)) colon

end Name

/-! ## Chips -/

/-- No digit is blank. -/
theorem isBlank_of_digit {c : Char} (digit : Numeral.isDigit c = true) : isBlank c = false := by
  simp only [Numeral.isDigit, Char.isDigit, Bool.and_eq_true, decide_eq_true_eq,
    UInt32.le_iff_toNat_le, ge_iff_le] at digit
  have inRange : 48 ≤ c.toNat ∧ c.toNat ≤ 57 := digit
  -- no range of blanks reaches into the digits
  have far : ∀ range ∈ blankRanges, range.2 < 48 ∨ 57 < range.1 := by decide
  apply List.any_eq_false.2
  intro range hrange
  have := far range hrange
  simp only [Bool.and_eq_true, decide_eq_true_eq]
  omega

/-- A currency sign; it may stand on either side of a number, or be left out. -/
inductive Sign where
  | none
  | dollar
  | euro
  | pound

def Sign.text : Sign → Text
  | .none => []
  | .dollar => ['$']
  | .euro => ['€']
  | .pound => ['£']

/-- A number of chips: digits, with a point or a comma in front of a fraction. -/
structure Chips where
  before : Sign
  whole : Text
  comma : Bool
  fraction : Text
  after : Sign
  whole_ne_nil : whole ≠ []
  whole_digits : ∀ c ∈ whole, Numeral.isDigit c = true
  fraction_digits : ∀ c ∈ fraction, Numeral.isDigit c = true

namespace Chips

variable (chips : Chips)

/-- The fraction behind its point or comma; nothing if there is no fraction. -/
def fractionText : Text :=
  if chips.fraction = [] then [] else (if chips.comma then ',' else '.') :: chips.fraction

def text : Text := chips.before.text ++ (chips.whole ++ (chips.fractionText ++ chips.after.text))

/-- The double nearest to the number. -/
def value : Float := (Decimal.ofDigits chips.whole chips.fraction).toFloat

theorem mem_text {c : Char} (inside : c ∈ chips.text) :
    Numeral.isDigit c = true ∨ c ∈ ['$', '€', '£', ',', '.'] := by
  have sign : ∀ sign : Sign, c ∈ sign.text → c ∈ ['$', '€', '£', ',', '.'] := by
    intro sign hc
    cases sign <;> simp_all [Sign.text]
  rcases List.mem_append.1 inside with hc | hc
  · exact Or.inr (sign _ hc)
  · rcases List.mem_append.1 hc with hc | hc
    · exact Or.inl (chips.whole_digits c hc)
    · rcases List.mem_append.1 hc with hc | hc
      · rw [fractionText] at hc
        split at hc
        · cases hc
        · rcases List.mem_cons.1 hc with rfl | hc
          · right
            split <;> simp
          · exact Or.inl (chips.fraction_digits c hc)
      · exact Or.inr (sign _ hc)

theorem not_mem {c : Char} (noDigit : Numeral.isDigit c = false)
    (other : c ∉ ['$', '€', '£', ',', '.']) : c ∉ chips.text := by
  intro inside
  rcases chips.mem_text inside with digit | glyph
  · rw [noDigit] at digit
    cases digit
  · exact other glyph

theorem not_mem_of_isAlpha {c : Char} (letter : c.isAlpha = true) : c ∉ chips.text := by
  refine chips.not_mem ?_ ?_
  · cases digit : Numeral.isDigit c with
    | false => rfl
    | true =>
      simp only [Numeral.isDigit, Char.isDigit, Char.isAlpha, Char.isUpper, Char.isLower,
        Bool.and_eq_true, Bool.or_eq_true, decide_eq_true_eq, UInt32.le_iff_toNat_le,
        ge_iff_le] at digit letter
      have low : c.val.toNat ≤ 57 := digit.2
      have high : 65 ≤ c.val.toNat := by
        rcases letter with upper | lower
        · exact upper.1
        · exact Nat.le_trans (by decide) lower.1
      omega
  · intro sign
    simp only [List.mem_cons, List.not_mem_nil, or_false] at sign
    rcases sign with h | h | h | h | h <;> subst h <;> cases letter

theorem text_ne_nil : chips.text ≠ [] := by
  simp [text, chips.whole_ne_nil]

theorem isBlank_eq_false {c : Char} (inside : c ∈ chips.text) : isBlank c = false := by
  rcases chips.mem_text inside with digit | glyph
  · exact isBlank_of_digit digit
  · simp only [List.mem_cons, List.not_mem_nil, or_false] at glyph
    rcases glyph with h | h | h | h | h <;> subst h <;> decide

theorem isLineBlank_eq_false {c : Char} (inside : c ∈ chips.text) : isLineBlank c = false := by
  have solid := chips.isBlank_eq_false inside
  cases blank : isLineBlank c with
  | false => rfl
  | true =>
    rw [isBlank_of_isLineBlank blank] at solid
    cases solid

theorem space_not_mem : ' ' ∉ chips.text := chips.not_mem (by decide) (by decide)

/-- The last character of chips is a digit or a currency sign, and so no letter. -/
theorem exists_last : ∃ front c, chips.text = front ++ [c] ∧ isLineBlank c = false ∧ c ≠ 'n' := by
  have last := List.dropLast_concat_getLast chips.text_ne_nil
  have inside := List.getLast_mem chips.text_ne_nil
  refine ⟨_, _, last.symm, chips.isLineBlank_eq_false inside, ?_⟩
  intro same
  rw [same] at inside
  exact chips.not_mem (by decide) (by decide) inside

/-- A word that begins with a letter does not begin chips. -/
theorem stripStart?_text {word : Text} (letter : word.head?.any Char.isAlpha = true) :
    stripStart? word chips.text = none := by
  obtain ⟨d, text, same⟩ := List.exists_cons_of_ne_nil chips.text_ne_nil
  cases word with
  | nil => cases letter
  | cons c word =>
    have different : c ≠ d := by
      rintro rfl
      exact chips.not_mem_of_isAlpha letter (same ▸ List.mem_cons_self)
    simp [same, stripStart?, different]

/-- The number of chips without the sign in front of it. -/
theorem dropWhile_text : chips.text.dropWhile (fun c => !Numeral.isDigit c) =
    chips.whole ++ (chips.fractionText ++ chips.after.text) := by
  have noDigit : chips.before.text.all (fun c => !Numeral.isDigit c) = true := by
    cases chips.before <;> decide
  obtain ⟨digit, others, hwhole⟩ := List.exists_cons_of_ne_nil chips.whole_ne_nil
  have first := chips.whole_digits digit (hwhole ▸ List.mem_cons_self)
  rw [text, List.dropWhile_append_of_pos (List.all_eq_true.1 noDigit), hwhole]
  exact List.dropWhile_cons_of_neg (by simp [first])

theorem replace_append (old new : Char) (text rest : Text) :
    Text.replace old new (text ++ rest) = Text.replace old new text ++ Text.replace old new rest :=
  List.map_append

theorem replace_digits {digits : Text} (all : ∀ c ∈ digits, Numeral.isDigit c = true) :
    Text.replace ',' '.' digits = digits := by
  refine (List.map_congr_left fun c hc => if_neg ?_).trans (List.map_id _)
  rintro rfl
  cases all ',' hc

/-- A fraction has a point in front of it, whichever character was written there. -/
theorem replace_fractionText : Text.replace ',' '.' chips.fractionText =
    if chips.fraction = [] then [] else '.' :: chips.fraction := by
  rw [fractionText]
  split
  · rfl
  · have digits := replace_digits chips.fraction_digits
    cases chips.comma <;> simp [Text.replace] <;> exact digits

/-- A number is read as its digits, if what is behind it does not go on with them. -/
theorem leading?_number {whole fraction behind : Text} (named : whole ≠ [])
    (wholeDigits : ∀ c ∈ whole, Numeral.isDigit c = true)
    (fractionDigits : ∀ c ∈ fraction, Numeral.isDigit c = true)
    (stop : behind.takeWhile Numeral.isDigit = []) (noPoint : behind.head? ≠ some '.') :
    Decimal.leading? (whole ++ ((if fraction = [] then [] else '.' :: fraction) ++ behind)) =
      some (Decimal.ofDigits whole fraction) := by
  have go : behind.dropWhile Numeral.isDigit = behind := by
    have both := List.takeWhile_append_dropWhile (p := Numeral.isDigit) (l := behind)
    rwa [stop, List.nil_append] at both
  have noFraction : Decimal.fractionOf behind = [] := by
    unfold Decimal.fractionOf
    split
    · exact absurd rfl noPoint
    · rfl
  by_cases hfraction : fraction = []
  · subst hfraction
    simp [Decimal.leading?, List.takeWhile_append_of_pos wholeDigits,
      List.dropWhile_append_of_pos wholeDigits, stop, go, noFraction, named]
  · have digits : Decimal.fractionOf ('.' :: (fraction ++ behind)) = fraction := by
      simp [Decimal.fractionOf, List.takeWhile_append_of_pos fractionDigits, stop]
    have pointStops : Numeral.isDigit '.' = false := by decide
    simp [Decimal.leading?, hfraction, List.takeWhile_append_of_pos wholeDigits,
      List.dropWhile_append_of_pos wholeDigits, pointStops, digits, named]

/-- Chips are read as their value, whatever sign stands in front of the number. -/
theorem ofToken?_text : Amount.ofToken? chips.text = some chips.value := by
  have after : Text.replace ',' '.' chips.after.text = chips.after.text := by
    cases chips.after <;> rfl
  have stop : chips.after.text.takeWhile Numeral.isDigit = [] := by
    cases chips.after <;> rfl
  have noPoint : chips.after.text.head? ≠ some '.' := by
    cases chips.after <;> decide
  rw [Amount.ofToken?, dropWhile_text, replace_append, replace_append,
    replace_digits chips.whole_digits, replace_fractionText, after,
    leading?_number chips.whole_ne_nil chips.whole_digits chips.fraction_digits stop noPoint]
  rfl

theorem words_text : words chips.text = [chips.text] :=
  words_eq_singleton chips.text_ne_nil fun _ hc => chips.isBlank_eq_false hc

/-- The last word of a line is its amount, if it is chips. -/
theorem last_of_words {line : Text} {front : List Text}
    (same : words line = front ++ [chips.text]) : (Amount.last line).value = chips.value := by
  rw [Amount.last, same]
  simp [chips.ofToken?_text]

end Chips

/-! ## Cards -/

/-- Cards with a space between any two of them. -/
def cardsText (cards : List Card) : Text := Text.join " " (cards.map Card.token)

/-- The letters of ranks and suits. -/
def cardLetters : Text := "23456789TJQKAcdhs"

theorem mem_cardLetters (card : Card) : ∀ c ∈ card.token, c ∈ cardLetters := by
  have all : card.token.all cardLetters.contains = true := by
    obtain ⟨rank, suit⟩ := card
    cases rank <;> cases suit <;> decide
  intro c inside
  exact List.contains_iff_mem.1 (List.all_eq_true.1 all c inside)

/-- Besides spaces, cards hold nothing but the letters of ranks and suits. -/
theorem not_mem_cardsText {c : Char} (noSpace : c ≠ ' ') (noLetter : c ∉ cardLetters)
    (cards : List Card) : c ∉ cardsText cards := by
  intro inside
  rcases mem_join inside with hc | ⟨piece, hpiece, hc⟩
  · exact noSpace (List.mem_singleton.1 hc)
  · obtain ⟨card, -, rfl⟩ := List.mem_map.1 hpiece
    exact noLetter (mem_cardLetters card c hc)

theorem groupTokens_cardsText (cards : List Card) :
    CardRow.groupTokens " " (cardsText cards) = cards.map Card.token := by
  have whole : ∀ token ∈ cards.map Card.token, ' ' ∉ token := by
    intro token htoken inside
    obtain ⟨card, -, rfl⟩ := List.mem_map.1 htoken
    exact absurd (mem_cardLetters card ' ' inside) (by decide)
  by_cases none : cards = []
  · subst none
    rfl
  · have fields : split [' '] (cardsText cards) = cards.map Card.token :=
      (split_singleton ' ' _).trans (fields_join (by simpa using none) whole)
    have trimmed : (cards.map Card.token).map trimBlank = cards.map Card.token := by
      rw [List.map_map]
      apply List.map_congr_left
      intro card _
      obtain ⟨rank, suit⟩ := card
      cases rank <;> cases suit <;> rfl
    have kept : (cards.map Card.token).filter (fun token => !token.isEmpty) =
        cards.map Card.token := by
      apply List.filter_eq_self.2
      intro token htoken
      obtain ⟨card, -, rfl⟩ := List.mem_map.1 htoken
      rfl
    show ((split [' '] (cardsText cards)).map trimBlank).filter (fun token => !token.isEmpty) = _
    rw [fields, trimmed, kept]

theorem mapM_ofToken (cards : List Card) :
    (cards.map Card.token).mapM Card.ofToken = .ok cards := by
  induction cards with
  | nil => rfl
  | cons card cards ih =>
    have first : Card.ofToken card.token = .ok card := Card.ofToken_eq_ok_iff.2 rfl
    rw [List.map_cons, List.mapM_cons, first, ih]
    rfl

/-- The group of up to five cards is read as the row of them. -/
theorem ofGroup_cardsText {cards : List Card} (few : cards.length ≤ 5) :
    CardRow.ofGroup " " (cardsText cards) = .ok (.ofCards cards) := by
  have all : (cards.map Card.token).take 5 = cards.map Card.token :=
    List.take_of_length_le (by simpa using few)
  rw [CardRow.ofGroup, groupTokens_cardsText, all, mapM_ofToken]
  rfl

end HandHistory.Written
