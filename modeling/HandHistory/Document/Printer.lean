import HandHistory.Decimal.Shortest
import HandHistory.Document

/-!
# Documents as JSON text

A document is printed with one item a line, indented by two blanks for each
record or list around it. Empty records and lists are printed in one piece. An
amount that is no finite number is printed as null, any other with the fewest
digits that read back as the same amount.
-/

namespace HandHistory.Document

/-! ## Amounts -/

/-- How the decimal of an amount is laid out. -/
structure AmountLayout where
  /-- The largest number of places in front of the point without an exponent. -/
  mostPlaces : Int
  /-- The largest number of zeros behind the point without an exponent. -/
  mostZeros : Int

/-- Up to sixteen places stand in front of the point, up to four zeros behind it. -/
def amountLayout : AmountLayout := ⟨16, 4⟩

/-- The text of a positive decimal. A number without a fraction has a zero for one,
unless it has an exponent. -/
def layOut (layout : AmountLayout) (s : Decimal.Shortest.Scientific) : Text :=
  let digits := Numeral.write s.digits
  let places : Int := digits.length + s.exponent
  if 0 ≤ s.exponent ∧ places ≤ layout.mostPlaces then
    digits ++ List.replicate s.exponent.toNat '0' ++ ".0"
  else if 0 < places ∧ places ≤ layout.mostPlaces then
    digits.take places.toNat ++ '.' :: digits.drop places.toNat
  else if -layout.mostZeros ≤ places ∧ places ≤ 0 then
    "0." ++ List.replicate (-places).toNat '0' ++ digits
  else
    let mantissa := digits.take 1 ++ (if digits.length = 1 then [] else '.' :: digits.drop 1)
    mantissa ++ 'e' :: Numeral.writeInt (places - 1)

/-- The text of a finite amount. -/
def amountText (value : Float) : Text :=
  let bits := value.toBits.toNat
  let sign : Text := if bits < Nat.pow 2 63 then [] else ['-']
  let size := bits % Nat.pow 2 63
  sign ++ if size = 0 then "0.0".toList else layOut amountLayout (Decimal.Shortest.ofBits size)

/-! ## Texts -/

/-- The last hexadecimal digit of a number. -/
def hexDigit (n : Nat) : Text := [Nat.digitChar (n % 16)]

/-- A character inside quotes. Quotes and backslashes have a backslash in front,
and control characters are written by name or by number. -/
def escape (c : Char) : Text :=
  match c with
  | '"' => "\\\""
  | '\\' => "\\\\"
  | '\x08' => "\\b"
  | '\x0c' => "\\f"
  | '\n' => "\\n"
  | '\r' => "\\r"
  | '\t' => "\\t"
  | c =>
    if c.toNat < 0x20 then "\\u00" ++ hexDigit (c.toNat / 16) ++ hexDigit c.toNat else [c]

def quoted (text : Text) : Text := '"' :: text.flatMap escape ++ ['"']

/-! ## Trees -/

/-- A line feed and the blanks that begin a line at a depth. -/
def newLine (depth : Nat) : Text := '\n' :: List.replicate (2 * depth) ' '

/-- Items at a depth between an opening and a closing bracket. -/
def block (opening closing : Char) (depth : Nat) (items : List Text) : Text :=
  if items.isEmpty then [opening, closing]
  else
    opening :: newLine (depth + 1) ++ Text.join (',' :: newLine (depth + 1)) items ++
      newLine depth ++ [closing]

mutual

/-- The text of a document that begins at a depth. -/
def printAt (depth : Nat) : Document → Text
  | .null => "null"
  | .flag value => if value then "true" else "false"
  | .number value => Numeral.writeInt value
  | .amount value => if value.isFinite then amountText value else "null"
  | .text value => quoted value
  | .list items => block '[' ']' depth (printItems (depth + 1) items)
  | .record fields => block '\x7b' '\x7d' depth (printFields (depth + 1) fields)

def printItems (depth : Nat) : List Document → List Text
  | [] => []
  | item :: items => printAt depth item :: printItems depth items

def printFields (depth : Nat) : List (Text × Document) → List Text
  | [] => []
  | (name, value) :: fields =>
    (quoted name ++ ": " ++ printAt depth value) :: printFields depth fields

end

/-- The text of a whole document. -/
def print (document : Document) : Text := printAt 0 document

end HandHistory.Document
