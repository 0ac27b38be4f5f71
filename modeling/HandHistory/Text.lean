/-!
# Text as a sequence of characters

Every line, name and token of the library is a list of code points, so that
cutting, trimming and searching are recursions on the list. A cut is always
between two code points; sizes in bytes are computed only where an answer is
given in bytes.

`Text.cut?` is the one search of the library: it divides a text at the first
occurrence of a needle, and membership, offsets and delimited groups are read
off it.
-/

namespace HandHistory

/-- A line, a name or a token: its code points in order. -/
abbrev Text := List Char

instance : Coe String Text := ⟨String.toList⟩

namespace Text

/-- What follows `lead` in a text that begins with it. -/
def stripStart? : (lead text : Text) → Option Text
  | [], text => some text
  | _ :: _, [] => none
  | l :: lead, c :: text => if l = c then stripStart? lead text else none

/-- What precedes `tail` in a text that ends with it. -/
def stripEnd? (tail text : Text) : Option Text :=
  (stripStart? tail.reverse text.reverse).map List.reverse

def hasStart (lead text : Text) : Bool := (stripStart? lead text).isSome

def hasEnd (tail text : Text) : Bool := (stripEnd? tail text).isSome

/-- The text before and the text after the first occurrence of `needle`. -/
def cut? (needle : Text) : Text → Option (Text × Text)
  | [] => (stripStart? needle []).map fun rest => ([], rest)
  | c :: text =>
    match stripStart? needle (c :: text) with
    | some rest => some ([], rest)
    | none => (cut? needle text).map fun (before, rest) => (c :: before, rest)

/-- The text before and the text after the last occurrence of `needle`. -/
def cutLast? (needle : Text) : Text → Option (Text × Text)
  | [] => (stripStart? needle []).map fun rest => ([], rest)
  | c :: text =>
    match cutLast? needle text with
    | some (before, rest) => some (c :: before, rest)
    | none => (stripStart? needle (c :: text)).map fun rest => ([], rest)

/-- Whether `needle` occurs in the text. -/
def has (needle text : Text) : Bool := (cut? needle text).isSome

/-- The text before the first occurrence of `needle`, or all of it. -/
def before (needle text : Text) : Text := ((cut? needle text).map Prod.fst).getD text

/-- The text strictly between the first `opening` and the next `closing` after it. -/
def between? (opening closing text : Text) : Option Text := do
  let (_, rest) ← cut? opening text
  let (inside, _) ← cut? closing rest
  return inside

/-- The inside of the group that the last `[` opens, up to the next `]`. -/
def lastBracketGroup? (text : Text) : Option Text := do
  let (_, rest) ← cutLast? "[" text
  let (inside, _) ← cut? "]" rest
  return inside

/-- Puts a character in front of the first of several pieces. -/
def consHead (c : Char) : List Text → List Text
  | [] => [[c]]
  | piece :: pieces => (c :: piece) :: pieces

/-- The maximal runs between separator characters; `n` separators leave `n + 1`
runs, some of them possibly empty. -/
def fieldsBy (isSeparator : Char → Bool) : Text → List Text
  | [] => [[]]
  | c :: text =>
    if isSeparator c then [] :: fieldsBy isSeparator text
    else consHead c (fieldsBy isSeparator text)

def fields (separator : Char) : Text → List Text := fieldsBy (· == separator)

/-- Cuts at every occurrence of `separator`, from left to right and without
overlap; `skip` characters still belong to the separator found last. -/
def splitFrom (separator : Text) : (skip : Nat) → Text → List Text
  | _, [] => [[]]
  | skip + 1, _ :: text => splitFrom separator skip text
  | 0, c :: text =>
    if hasStart separator (c :: text) then
      [] :: splitFrom separator (separator.length - 1) text
    else consHead c (splitFrom separator 0 text)

/-- Cuts at every occurrence of `separator`. The empty separator occurs before
and after each character. -/
def split (separator text : Text) : List Text :=
  if separator.isEmpty then [] :: text.map (fun c => [c]) ++ [[]]
  else splitFrom separator 0 text

/-- The pieces with `separator` between any two of them. -/
def join (separator : Text) : List Text → Text
  | [] => []
  | [piece] => piece
  | piece :: pieces => piece ++ separator ++ join separator pieces

/-- Removes the longest run of `drop` characters at the end. -/
def trimEndBy (drop : Char → Bool) (text : Text) : Text :=
  (text.reverse.dropWhile drop).reverse

/-- Removes the longest runs of `drop` characters at both ends. -/
def trimBy (drop : Char → Bool) (text : Text) : Text :=
  trimEndBy drop (text.dropWhile drop)

def replace (old new : Char) (text : Text) : Text :=
  text.map fun c => if c = old then new else c

/-- Lowers the letters A to Z and leaves every other character as it is. -/
def lowerAscii (text : Text) : Text := text.map Char.toLower

/-- The number of bytes of the text in UTF-8. -/
def utf8Size : Text → Nat
  | [] => 0
  | c :: text => c.utf8Size + utf8Size text

/-- The byte offset of the first occurrence of `needle`. -/
def find? (needle text : Text) : Option Nat :=
  (cut? needle text).map fun (front, _) => utf8Size front

/-! ## What a successful search says -/

theorem stripStart?_eq_some_iff {lead text rest : Text} :
    stripStart? lead text = some rest ↔ text = lead ++ rest := by
  induction lead generalizing text with
  | nil => simp [stripStart?, eq_comm]
  | cons l lead ih =>
    cases text with
    | nil => simp [stripStart?]
    | cons c text =>
      by_cases same : l = c
      · simp [stripStart?, same, ih]
      · have different : c ≠ l := fun h => same h.symm
        simp [stripStart?, same, different]

theorem cut?_eq_some {needle text front rest : Text}
    (found : cut? needle text = some (front, rest)) : text = front ++ needle ++ rest := by
  induction text generalizing front with
  | nil =>
    obtain ⟨r, hr, heq⟩ := Option.map_eq_some_iff.1 found
    cases heq
    simpa using stripStart?_eq_some_iff.1 hr
  | cons c text ih =>
    simp only [cut?] at found
    split at found
    · next r hr =>
      cases found
      simpa using stripStart?_eq_some_iff.1 hr
    · obtain ⟨⟨f, r⟩, hfr, heq⟩ := Option.map_eq_some_iff.1 found
      cases heq
      simpa using ih hfr

theorem fieldsBy_ne_nil (isSeparator : Char → Bool) (text : Text) :
    fieldsBy isSeparator text ≠ [] := by
  cases text with
  | nil => simp [fieldsBy]
  | cons c text =>
    simp only [fieldsBy]
    split
    · simp
    · cases fieldsBy isSeparator text <;> simp [consHead]

end Text

end HandHistory
