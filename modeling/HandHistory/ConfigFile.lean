import HandHistory.Numeral
import HandHistory.Text.Lines

/-!
# Configuration files

A plain configuration file is a list of lines `key = value` in the syntax of
TOML, with comments and blank lines between them. Keys are bare, and values are
quoted texts, integers, decimal fractions and flags; tables, arrays and dates
are not read. A file in which one line has another form, a number is beyond its
range, or a key occurs twice, is malformed as a whole.
-/

namespace HandHistory

inductive ConfigValue where
  | text (value : Text)
  | integer (value : Int)
  /-- A number with a fraction or an exponent, as it is written. -/
  | decimal (token : Text)
  | flag (value : Bool)
  deriving DecidableEq, Repr

namespace ConfigFile

/-- The blanks within a line. -/
def isSpace (c : Char) : Bool := c == ' ' || c == '\t'

/-- The characters that neither a text nor a comment may hold. -/
def isControl (c : Char) : Bool := (c.toNat < 0x20 && c != '\t') || c.toNat == 0x7f

/-- The characters of a bare key. -/
def isKeyCharacter (c : Char) : Bool := c.isAlphanum || c == '_' || c == '-'

/-! ## Numbers -/

/-- The value of a digit in a base up to sixteen. -/
def digitValue? (base : Nat) (c : Char) : Option Nat :=
  let value? :=
    if c.isDigit then some (c.toNat - '0'.toNat)
    else if 'a' ≤ c ∧ c ≤ 'f' then some (c.toNat - 'a'.toNat + 10)
    else if 'A' ≤ c ∧ c ≤ 'F' then some (c.toNat - 'A'.toNat + 10)
    else none
  value?.filter fun value => value < base

/-- Digits in groups between single underscores, without the underscores. -/
def ungrouped? (isDigit : Char → Bool) (token : Text) : Option Text :=
  let groups := Text.fields '_' token
  if groups.all fun group => !group.isEmpty && group.all isDigit then some groups.flatten
  else none

/-- A number in a base, with leading zeros allowed. -/
def natural? (base : Nat) (token : Text) : Option Nat := do
  let digits ← ungrouped? (fun c => (digitValue? base c).isSome) token
  let values ← digits.mapM (digitValue? base)
  return values.foldl (fun number value => base * number + value) 0

/-- A decimal number without leading zeros. -/
def decimal? (token : Text) : Option Nat :=
  if token.head? = some '0' ∧ token ≠ ['0'] then none else natural? 10 token

/-- A sign, if there is one, and what follows it. -/
def signed : Text → Bool × Text
  | '-' :: rest => (true, rest)
  | '+' :: rest => (false, rest)
  | text => (false, text)

/-- An integer: decimal with an optional sign, or in a base that its lead names. -/
def integer? (token : Text) : Option Int :=
  match token with
  | '0' :: 'x' :: rest => (natural? 16 rest).map Int.ofNat
  | '0' :: 'o' :: rest => (natural? 8 rest).map Int.ofNat
  | '0' :: 'b' :: rest => (natural? 2 rest).map Int.ofNat
  | _ =>
    let (isNegative, digits) := signed token
    (decimal? digits).map fun n => if isNegative then -(n : Int) else n

/-- The integers that a file may hold anywhere. -/
def isInRange (n : Int) : Bool := -(Int.pow 2 127) ≤ n && n < Int.pow 2 128

/-- The part in front of an exponent, and the exponent. -/
def divideExponent (token : Text) : Text × Option Text :=
  match token.dropWhile fun c => c != 'e' && c != 'E' with
  | _ :: exponent => (token.takeWhile fun c => c != 'e' && c != 'E', some exponent)
  | [] => (token, none)

/-- The power of ten that an exponent names. -/
def power? (exponent : Text) : Option Int :=
  let (isNegative, digits) := signed exponent
  (natural? 10 digits).map fun n => if isNegative then -(n : Int) else n

/-- The number `digits * 10 ^ power` that has a fraction, an exponent or both. -/
def scientific? (body : Text) : Option (Nat × Int) := do
  let (mantissa, exponent?) := divideExponent body
  let (whole, fraction?) := match Text.cut? "." mantissa with
    | some (whole, fraction) => (whole, some fraction)
    | none => (mantissa, none)
  if fraction?.isNone && exponent?.isNone then none
  let number ← decimal? whole
  let places ← fraction?.elim (some []) (ungrouped? Numeral.isDigit)
  let power ← exponent?.elim (some 0) power?
  return (number * Nat.pow 10 places.length + Numeral.ofDigits places, power - places.length)

/-- Whether a number is within the range of doubles. A small one always is, since
it may be rounded to zero. -/
def isRepresentable (digits : Nat) (power : Int) : Bool :=
  (Float.ofScientific digits (power < 0) power.natAbs).isFinite

/-- Whether a token is a representable number with a fraction or an exponent, or
stands for infinity or for no number. -/
def isDecimal (token : Text) : Bool :=
  let (_, body) := signed token
  body == "inf".toList || body == "nan".toList ||
    (scientific? body).any fun (digits, power) => isRepresentable digits power

/-! ## Texts -/

/-- The character that a letter stands for behind a backslash. -/
def escaped? : Char → Option Char
  | 'b' => some '\x08'
  | 't' => some '\t'
  | 'n' => some '\n'
  | 'f' => some '\x0c'
  | 'r' => some '\r'
  | 'e' => some '\x1b'
  | '"' => some '"'
  | '\\' => some '\\'
  | _ => none

/-- The character with a number in hexadecimal digits. -/
def numbered? (digits : Text) : Option Char := do
  let values ← digits.mapM (digitValue? 16)
  let number := values.foldl (fun number value => 16 * number + value) 0
  if number.isValidChar then some (Char.ofNat number) else none

/-- The text in front of the closing quote, and what follows the quote. -/
def quoted? : Text → Option (Text × Text)
  | [] => none
  | '"' :: rest => some ([], rest)
  | '\\' :: 'x' :: c₁ :: c₂ :: rest => do
    let c ← numbered? [c₁, c₂]
    let (text, rest) ← quoted? rest
    return (c :: text, rest)
  | '\\' :: 'u' :: c₁ :: c₂ :: c₃ :: c₄ :: rest => do
    let c ← numbered? [c₁, c₂, c₃, c₄]
    let (text, rest) ← quoted? rest
    return (c :: text, rest)
  | '\\' :: 'U' :: c₁ :: c₂ :: c₃ :: c₄ :: c₅ :: c₆ :: c₇ :: c₈ :: rest => do
    let c ← numbered? [c₁, c₂, c₃, c₄, c₅, c₆, c₇, c₈]
    let (text, rest) ← quoted? rest
    return (c :: text, rest)
  | '\\' :: letter :: rest => do
    let c ← escaped? letter
    let (text, rest) ← quoted? rest
    return (c :: text, rest)
  | c :: rest =>
    if isControl c || c == '\\' then none
    else (quoted? rest).map fun (text, rest) => (c :: text, rest)

/-! ## Lines -/

/-- The value that a word without quotes denotes. -/
def word? (token : Text) : Option ConfigValue :=
  if token = "true".toList then some (.flag true)
  else if token = "false".toList then some (.flag false)
  else
    match integer? token with
    | some n => if isInRange n then some (.integer n) else none
    | none => if isDecimal token then some (.decimal token) else none

/-- The value at the head of a text, and what follows it. -/
def value? : Text → Option (ConfigValue × Text)
  | '"' :: rest => (quoted? rest).map fun (text, rest) => (.text text, rest)
  | text =>
    let inWord (c : Char) : Bool := !isSpace c && c != '#'
    (word? (text.takeWhile inWord)).map fun value => (value, text.dropWhile inWord)

/-- Whether a text says nothing: it is blank, or a comment behind blanks. -/
def isSilent (text : Text) : Bool :=
  match text.dropWhile isSpace with
  | [] => true
  | '#' :: comment => !comment.any isControl
  | _ => false

/-- The entry of a line that is not silent. -/
def entry? (line : Text) : Option (Text × ConfigValue) := do
  let text := line.dropWhile isSpace
  let key := text.takeWhile isKeyCharacter
  if key.isEmpty then none
  let behind ← Text.stripStart? "=" ((text.dropWhile isKeyCharacter).dropWhile isSpace)
  let (value, rest) ← value? (behind.dropWhile isSpace)
  if isSilent rest then some (key, value) else none

/-- The entries of a file in their order, each key once. -/
def entries? (text : Text) : Option (List (Text × ConfigValue)) := do
  let entries ← ((Text.lines text).filter fun line => !isSilent line).mapM entry?
  if (entries.map Prod.fst).Nodup then some entries else none

end ConfigFile

end HandHistory
