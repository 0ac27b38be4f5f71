import HandHistory.Error

/-!
# What is played, and for what

The label of a game names its variant and its betting limit, in one of several
spellings; a label that names neither is read as none. The stakes of a game are
its blinds or its buy-in, and are never negative.
-/

namespace HandHistory

inductive Variant where
  | unnamed
  | holdem
  | omaha
  | omaha5
  deriving DecidableEq, Repr

namespace Variant

def text : Variant → Text
  | .unnamed => "none"
  | .holdem => "holdem"
  | .omaha => "omaha"
  | .omaha5 => "omaha5"

/-- The variant a label names, whatever the case of its letters. Five-card Omaha
is looked for first, since its names contain that of Omaha. -/
def ofLabel (label : Text) : Variant :=
  let label := Text.lowerAscii label
  if Text.has "omaha5" label || Text.has "5 card omaha" label || Text.has "omaha 5" label then
    .omaha5
  else if Text.has "omaha" label then .omaha
  else if Text.has "holdem" label || Text.has "hold'em" label then .holdem
  else .unnamed

end Variant

inductive Limit where
  | unnamed
  | noLimit
  | potLimit
  deriving DecidableEq, Repr

namespace Limit

def text : Limit → Text
  | .unnamed => "none"
  | .noLimit => "no-limit"
  | .potLimit => "pot-limit"

/-- The limit a label names, whatever the case of its letters and with hyphens
for spaces. -/
def ofLabel (label : Text) : Limit :=
  let label := Text.replace '-' ' ' (Text.lowerAscii label)
  if Text.has "no limit" label then .noLimit
  else if Text.has "pot limit" label then .potLimit
  else .unnamed

end Limit

/-- Whether a hand belongs to a cash table or to a tournament. -/
inductive GameKind where
  | cash
  | tournament
  deriving DecidableEq, Repr

def GameKind.text : GameKind → Text
  | .cash => "cashgame"
  | .tournament => "tournament"

/-- The blinds of a cash table, or the total buy-in of a tournament. -/
inductive Stakes where
  | cash (smallBlind bigBlind : Float)
  | tournament (buyIn : Float)
  deriving Repr

namespace Stakes

def kind : Stakes → GameKind
  | .cash .. => .cash
  | .tournament .. => .tournament

def createCash (smallBlind bigBlind : Float) : Except ModelError Stakes :=
  if smallBlind < 0 then .error (.negativeAmount .smallBlind)
  else if bigBlind < 0 then .error (.negativeAmount .bigBlind)
  else .ok (.cash smallBlind bigBlind)

def createTournament (buyIn : Float) : Except ModelError Stakes :=
  if buyIn < 0 then .error (.negativeAmount .buyIn) else .ok (.tournament buyIn)

end Stakes

end HandHistory
