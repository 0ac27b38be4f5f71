import HandHistory.Decimal
import HandHistory.Event
import HandHistory.Text.Blank

/-!
# Amounts in noisy text

Amounts carry currency glyphs on either side, may use a decimal comma, and
stand in the middle of sentences. No reader in this module fails. A text
without a number reads as zero, and the readers that return a `Logged` amount
record one event for it; the readers of a single token and of a blinds group
record none.
-/

namespace HandHistory.Amount

/-- The amount of one token: everything before its first digit is skipped and
everything after the number is ignored. -/
def ofToken? (token : Text) : Option Float :=
  let number := token.dropWhile fun c => !Numeral.isDigit c
  (Decimal.leading? (Text.replace ',' '.' number)).map Decimal.toFloat

/-- Zero, with a note that `token` should have been an amount. -/
def defaulted (token : Text) : Logged Float := ⟨0, [.amountDefaulted token]⟩

/-- The amount at the head of a text; blank text is silently zero. -/
def atHead (text : Text) : Logged Float :=
  let number := Text.replace ',' '.' (Text.trimLine text)
  match Decimal.leading? number with
  | some d => pure d.toFloat
  | none => if number.isEmpty then pure 0 else defaulted text

/-- The characters of a buy-in part that belong to its number, with a comma as point. -/
def numeric (part : Text) : Text :=
  (Text.replace ',' '.' part).filter fun c => Numeral.isDigit c || c == '.'

/-- One part of a buy-in; characters that belong to no number are skipped
wherever they stand. -/
def buyInPart (part : Text) : Logged Float :=
  match Decimal.leading? (numeric part) with
  | some d => pure d.toFloat
  | none => if (Text.trimLine part).isEmpty then pure 0 else defaulted part

/-- The sum of the parts between plus signs, added from the left. -/
def buyIn (text : Text) : Logged Float :=
  (Text.fields '+' text).foldlM (fun sum part => (sum + ·) <$> buyInPart part) 0

/-- The amount of the last word that has one. -/
def last (line : Text) : Logged Float :=
  match (Text.words line).reverse.findSome? ofToken? with
  | some amount => pure amount
  | none => defaulted line

/-- Small and big blind: the last two amounts of a group such as `0.01/0.02` or
`5/15/30`. A part without a number counts as zero. -/
def blinds (group : Text) : Float × Float :=
  let amounts := (Text.fields '/' group).map fun part =>
    (ofToken? (Text.trimBlank part)).getD 0
  match amounts.reverse with
  | big :: small :: _ => (small, big)
  | [big] => (0, big)
  | [] => (0, 0)

end HandHistory.Amount
