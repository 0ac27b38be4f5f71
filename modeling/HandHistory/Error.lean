import HandHistory.Text

/-!
# Why a history cannot be read

Four kinds of failure are kept apart. A `TokenError` names a token outside its
alphabet. A `ModelError` names the rule that the fields of an entity break. A
`ParseError` says where a file stops having the shape of a history. A
`PoolError` says why there is nobody to read it. Each error is a cause; its
wording is one function of the cause.

`ParseError.splitCharacter` is of a different kind from the others. It abandons
the task that reads the file instead of being reported by it, see `abandons`.
-/

namespace HandHistory

/-- The alphabets a token may fall outside of. -/
inductive TokenKind where
  | card
  | seat
  | street
  | action
  deriving DecidableEq, Repr

def TokenKind.text : TokenKind → Text
  | .card => "card"
  | .seat => "seat"
  | .street => "street"
  | .action => "action"

/-- A token that is not in the alphabet of its kind. -/
structure TokenError where
  kind : TokenKind
  token : Text
  deriving DecidableEq, Repr

def TokenError.message (e : TokenError) : Text :=
  "unknown " ++ e.kind.text ++ " token `" ++ e.token ++ "`"

/-- The fields that must not be empty. -/
inductive RequiredField where
  | playerName
  | playerSite
  | actionHand
  | actionPlayer
  | handId
  | handSite
  | handTable
  | gameId
  | gameSite
  | gameName
  deriving DecidableEq, Repr

/-- The entity a required field belongs to, and the name of the field. -/
def RequiredField.place : RequiredField → Text × Text
  | .playerName => ("Player", "name")
  | .playerSite => ("Player", "site_name")
  | .actionHand => ("Action", "hand_id")
  | .actionPlayer => ("Action", "player_name")
  | .handId => ("Hand", "id")
  | .handSite => ("Hand", "site_name")
  | .handTable => ("Hand", "table_name")
  | .gameId => ("Game", "id")
  | .gameSite => ("Game", "site_name")
  | .gameName => ("Game", "name")

/-- The amounts that must not be negative. -/
inductive AmountField where
  | bet
  | ante
  | smallBlind
  | bigBlind
  | buyIn
  deriving DecidableEq, Repr

/-- The entity an amount belongs to, and the name of the field. -/
def AmountField.place : AmountField → Text × Text
  | .bet => ("Action", "bet_amount")
  | .ante => ("Hand", "ante")
  | .smallBlind => ("CashGame", "small_blind")
  | .bigBlind => ("CashGame", "big_blind")
  | .buyIn => ("Tournament", "buy_in")

/-- A rule that the fields of an entity break. -/
inductive ModelError where
  | emptyField (field : RequiredField)
  | negativeAmount (field : AmountField)
  | streetNone
  | noOccupiedSeat (handId : Text)
  | maxSeatsUndefined (gameId : Text)
  | siteMismatch (this other : Text)
  deriving DecidableEq, Repr

def ModelError.message : ModelError → Text
  | .emptyField field =>
    field.place.1 ++ " field `" ++ field.place.2 ++ "` must not be empty"
  | .negativeAmount field =>
    field.place.1 ++ " field `" ++ field.place.2 ++ "` must not be negative"
  | .streetNone => "Action street must not be none"
  | .noOccupiedSeat handId => "Hand " ++ handId ++ " has no occupied seat"
  | .maxSeatsUndefined gameId => "Game " ++ gameId ++ " has no max seat count"
  | .siteMismatch this other => "Cannot merge site " ++ other ++ " into site " ++ this

/-- The landmarks by which a header or a table line is read. -/
inductive Anchor where
  | winamaxHandId
  | winamaxDate
  | winamaxTable
  | starsHandId
  | starsDate
  | starsTable
  | quote
  | maxSeats
  deriving DecidableEq, Repr

def Anchor.text : Anchor → Text
  | .winamaxHandId => "HandId: #"
  | .winamaxDate => "YYYY/MM/DD HH:MM:SS"
  | .winamaxTable => "Table: "
  | .starsHandId => "#"
  | .starsDate => "YYYY/MM/DD H:MM:SS"
  | .starsTable => "Table '"
  | .quote => "'"
  | .maxSeats => "-max"

/-- The line a hand still needs when its file ends. -/
inductive MissingLine where
  | handHeader
  | tableLine
  deriving DecidableEq, Repr

def MissingLine.text : MissingLine → Text
  | .handHeader => "hand header"
  | .tableLine => "table line"

/-- Why reading one history file stops. -/
inductive ParseError where
  | missingAnchor (file : Text) (anchor : Anchor) (line : Text)
  | unexpectedEnd (file : Text) (missing : MissingLine)
  | invalidCard (file token : Text)
  | model (file : Text) (source : ModelError)
  | unreadable (path reason : Text)
  /-- The seat count of a table line follows a character of several bytes. -/
  | splitCharacter (file line : Text)
  deriving DecidableEq, Repr

namespace ParseError

def message : ParseError → Text
  | .missingAnchor file anchor line =>
    file ++ ": expected `" ++ anchor.text ++ "` in line: " ++ line
  | .unexpectedEnd file missing =>
    file ++ ": unexpected end of input (" ++ missing.text ++ ")"
  | .invalidCard file token => file ++ ": invalid card token `" ++ token ++ "`"
  | .model file source => file ++ ": " ++ source.message
  | .unreadable path reason => "failed to read " ++ path ++ ": " ++ reason
  | .splitCharacter file line => file ++ ": seat count behind a wide character in line: " ++ line

/-- Whether the error ends the reading task itself, so that nobody is left to
report it under the name of the file. -/
def abandons : ParseError → Bool
  | .splitCharacter .. => true
  | _ => false

end ParseError

/-- Why a pool could not be started. -/
structure PoolError where
  reason : Text
  deriving DecidableEq, Repr

def PoolError.message (e : PoolError) : Text := "thread pool unavailable: " ++ e.reason

end HandHistory
