import HandHistory.Hand

/-!
# Games

A game is what one history file tells about one table or one tournament: the
hands in the order of the file under a common description. A game without an
identifier, a room, a name or a seat count is refused.
-/

namespace HandHistory

structure Game where
  id : Text
  site : Text
  name : Text
  variant : Variant
  limit : Limit
  isRealMoney : Bool
  maxSeats : Nat
  start : Timestamp
  hands : List Hand := []

namespace Game

/-- A game whose fields keep the rules; the first broken rule is the error. -/
def create (game : Game) : Except ModelError Game :=
  if game.id.isEmpty then .error (.emptyField .gameId)
  else if game.site.isEmpty then .error (.emptyField .gameSite)
  else if game.name.isEmpty then .error (.emptyField .gameName)
  else if game.maxSeats = 0 then .error (.maxSeatsUndefined game.id)
  else .ok game

theorem eq_of_create {game created : Game} (h : game.create = .ok created) : created = game := by
  unfold create at h
  split at h
  · cases h
  · split at h
    · cases h
    · split at h
      · cases h
      · split at h <;> cases h
        rfl

/-- The game with one more hand behind the others. -/
def addHand (hand : Hand) (game : Game) : Game := { game with hands := game.hands ++ [hand] }

def actionCount (game : Game) : Nat :=
  (game.hands.map fun hand => hand.actions.length).foldr (· + ·) 0

end Game

/-- A game together with the money it is played for. -/
structure StakedGame where
  game : Game
  stakes : Stakes

namespace StakedGame

def addHand (hand : Hand) (staked : StakedGame) : StakedGame :=
  { staked with game := staked.game.addHand hand }

def isCash (staked : StakedGame) : Bool := staked.stakes.kind == .cash

end StakedGame

end HandHistory
