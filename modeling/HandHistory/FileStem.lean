import HandHistory.Stakes

/-!
# What a file name tells

One room writes the description of a game into the stem of its file name, as
fields between underscores: `date_name_money_variant_limit`, for instance
`20141116_Double or Nothing(100679030)_real_holdem_no-limit`. The name in the
middle may have underscores of its own.

A stem is not read when it is a copy that a client has numbered, when both
money words stand in it as fields, or when it is shorter than any stem with all
five fields can be.
-/

namespace HandHistory

/-- The description of a game in the stem of a file name. -/
structure FileStem where
  isRealMoney : Bool
  name : Text
  variant : Variant
  limit : Limit
  deriving DecidableEq, Repr

namespace FileStem

/-- The size in bytes of the shortest stem with all five fields. -/
def shortest : Nat := Text.utf8Size "00000000_x_real_omaha_no-limit"

/-- Whether the stem is a numbered copy: it ends with `)`, and its last field
has a `(`. -/
def isCopy (stem : Text) : Bool :=
  Text.hasEnd ")" stem &&
    ((Text.fields '_' stem).getLast?.elim false fun field => field.contains '(')

/-- The money type that a field names. -/
def money? (field : Text) : Option Bool :=
  if field = "real".toList then some true
  else if field = "play".toList then some false
  else none

/-- The description that a list of fields holds. -/
def ofFields? (fields : List Text) : Option FileStem :=
  match fields.reverse with
  | limit :: variant :: money :: front =>
    match front.reverse with
    | _date :: first :: others => do
      let isRealMoney ← money? money
      return { isRealMoney
               name := Text.join "_" (first :: others)
               variant := .ofLabel variant
               limit := .ofLabel limit }
    | _ => none
  | _ => none

/-- Reads the description in a stem. -/
def ofText? (stem : Text) : Option FileStem :=
  if Text.utf8Size stem < shortest || isCopy stem ||
      (Text.has "_real_" stem && Text.has "_play_" stem) then none
  else ofFields? (Text.fields '_' stem)

end FileStem

end HandHistory
