import HandHistory.Numeral
import HandHistory.Text.Blank

/-!
# Timestamps

A hand starts at a second of the proleptic Gregorian calendar, in UTC. It is
written `YYYY/MM/DD H:MM:SS`, and whoever reads a date brings a `Reader` of this
form, of which nothing is known but that a date begins with its year. The reader
`Reader.gregorian` checks that the date exists; a sixtieth second is accepted in every
minute, as a leap second, and is kept as such.

No time zone is read: whatever follows the two words of date and time is
ignored.
-/

namespace HandHistory

structure Timestamp where
  year : Int
  month : Nat
  day : Nat
  hour : Nat
  minute : Nat
  second : Nat
  deriving DecidableEq, Repr

namespace Timestamp

def isLeapYear (year : Int) : Bool :=
  year % 4 == 0 && (year % 100 != 0 || year % 400 == 0)

/-- The length of a month, zero if there is no such month. -/
def daysInMonth (year : Int) (month : Nat) : Nat :=
  if month = 2 then (if isLeapYear year then 29 else 28)
  else if month ∈ [4, 6, 9, 11] then 30
  else if 1 ≤ month ∧ month ≤ 12 then 31
  else 0

def firstYear : Int := -262143

def lastYear : Int := 262142

/-- Whether the date exists, lies in the supported years and has a time of day. -/
def isValid (t : Timestamp) : Bool :=
  firstYear ≤ t.year && t.year ≤ lastYear &&
  1 ≤ t.day && t.day ≤ daysInMonth t.year t.month &&
  t.hour < 24 && t.minute < 60 && t.second ≤ 60

/-! ## Reading -/

/-- One to `width` digits at the head of a text, and what follows them. -/
def digits? (width : Nat) (text : Text) : Option (Nat × Text) :=
  let digits := (text.take width).takeWhile Numeral.isDigit
  if digits.isEmpty then none
  else some (Numeral.ofDigits digits, text.drop digits.length)

/-- A field of one or two digits, which blanks may precede. -/
def field? (text : Text) : Option (Nat × Text) := digits? 2 (text.dropWhile Text.isBlank)

/-- A year of up to four digits, or of any number of digits behind a sign. -/
def year? (text : Text) : Option (Int × Text) :=
  match text.dropWhile Text.isBlank with
  | '-' :: rest => (digits? rest.length rest).map fun (year, rest) => (-(year : Int), rest)
  | '+' :: rest => (digits? rest.length rest).map fun (year, rest) => ((year : Int), rest)
  | rest => (digits? 4 rest).map fun (year, rest) => ((year : Int), rest)

/-- Reads a whole text as a date and a time of day. -/
def ofText? (text : Text) : Option Timestamp := do
  let (year, rest) ← year? text
  let (month, rest) ← field? (← Text.stripStart? "/" rest)
  let (day, rest) ← field? (← Text.stripStart? "/" rest)
  let (hour, rest) ← field? rest
  let (minute, rest) ← field? (← Text.stripStart? ":" rest)
  let (second, rest) ← field? (← Text.stripStart? ":" rest)
  let t : Timestamp := { year, month, day, hour, minute, second }
  if rest.isEmpty && t.isValid then some t else none

/-- Whether a text begins with a digit, behind blanks and one sign at most. -/
def opensWithYear (text : Text) : Bool :=
  match text.dropWhile Text.isBlank with
  | '-' :: rest | '+' :: rest => rest.head?.any Numeral.isDigit
  | rest => rest.head?.any Numeral.isDigit

/-- What reads a whole text as a date and a time of day. -/
structure Reader where
  read : (text : Text) → Option Timestamp
  /-- A date begins with its year. -/
  opensWithYear_of_read : ∀ text t, read text = some t → opensWithYear text = true

theorem head?_of_digits? {width : Nat} {text : Text} (found : (digits? width text).isSome = true) :
    text.head?.any Numeral.isDigit = true := by
  cases text with
  | nil => simp [digits?] at found
  | cons c rest =>
    cases digit : Numeral.isDigit c with
    | true => simp [digit]
    | false => cases width <;> simp [digits?, digit] at found

theorem opensWithYear_of_year? {text : Text} (found : (year? text).isSome = true) :
    opensWithYear text = true := by
  rw [year?] at found
  rw [opensWithYear]
  split <;> simp_all only [Option.isSome_map] <;> exact head?_of_digits? found

theorem opensWithYear_of_ofText? {text : Text} {t : Timestamp} (found : ofText? text = some t) :
    opensWithYear text = true := by
  refine opensWithYear_of_year? ?_
  cases year : year? text with
  | none =>
    rw [ofText?, year] at found
    cases found
  | some year => rfl

/-- The reader of the dates of the calendar. -/
def Reader.gregorian : Reader where
  read := ofText?
  opensWithYear_of_read _ _ := opensWithYear_of_ofText?

/-- Reads the first two words of a text; the others are ignored. -/
def leading? (dates : Reader) (text : Text) : Option Timestamp :=
  match Text.words text with
  | date :: time :: _ => dates.read (date ++ ' ' :: time)
  | _ => none

/-! ## Writing -/

/-- Four digits, and outside of the years 0 to 9999 a sign in front of them. -/
def yearText (year : Int) : Text :=
  let digits := Numeral.writePadded 4 year.natAbs
  if year < 0 then '-' :: digits
  else if 9999 < year then '+' :: digits
  else digits

/-- The form `YYYY-MM-DDTHH:MM:SSZ`. -/
def text (t : Timestamp) : Text :=
  let two := Numeral.writePadded 2
  yearText t.year ++ '-' :: two t.month ++ '-' :: two t.day ++
    'T' :: two t.hour ++ ':' :: two t.minute ++ ':' :: two t.second ++ ['Z']

/-! ## Seconds since 1970 -/

/-- The days from the first of January 1970 to a date. Months are counted from
March, so that the leap day is the last of its year. -/
def dayNumber (year : Int) (month day : Nat) : Int :=
  let year := if month ≤ 2 then year - 1 else year
  let month : Int := if month ≤ 2 then month + 9 else month - 3
  let era := year / 400
  let yearOfEra := year % 400
  let dayOfYear := (153 * month + 2) / 5 + day - 1
  let dayOfEra := yearOfEra * 365 + yearOfEra / 4 - yearOfEra / 100 + dayOfYear
  era * 146097 + dayOfEra - 719468

/-- The seconds from the start of 1970; a leap second shares the number of the
second before it. -/
def toUnix (t : Timestamp) : Int :=
  dayNumber t.year t.month t.day * 86400 + t.hour * 3600 + t.minute * 60 + min t.second 59

/-- The date and time of day a number of seconds after the start of 1970. -/
def ofUnix (seconds : Int) : Timestamp :=
  let days := seconds / 86400 + 719468
  let time := (seconds % 86400).toNat
  let era := days / 146097
  let dayOfEra := days % 146097
  let yearOfEra := (dayOfEra - dayOfEra / 1460 + dayOfEra / 36524 - dayOfEra / 146096) / 365
  let dayOfYear := dayOfEra - (365 * yearOfEra + yearOfEra / 4 - yearOfEra / 100)
  let month := (5 * dayOfYear + 2) / 153
  let year := yearOfEra + era * 400
  { year := if month < 10 then year else year + 1
    month := (if month < 10 then month + 3 else month - 9).toNat
    day := (dayOfYear - (153 * month + 2) / 5 + 1).toNat
    hour := time / 3600
    minute := time / 60 % 60
    second := time % 60 }

end Timestamp

end HandHistory
