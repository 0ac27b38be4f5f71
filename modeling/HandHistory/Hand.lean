import HandHistory.Action
import HandHistory.Card
import HandHistory.Seat
import HandHistory.Stakes
import HandHistory.Timestamp

/-!
# Hands

A hand is one deal, from the blinds to the award of the pot. Its seats and its
winners are rows of ten names in which an empty name marks a free place.
`Hand.create` refuses a hand without an identifier, a room or a table, one with
a negative ante, and one at a table where nobody sits.
-/

namespace HandHistory

structure Hand where
  id : Text
  kind : GameKind
  site : Text
  table : Text
  button : Seat
  maxSeats : Nat
  level : Nat
  ante : Float
  start : Timestamp
  heroCards : CardRow
  board : CardRow
  seats : NameRow
  actions : List Action
  winners : NameRow

namespace Hand

/-- A hand whose fields keep the rules; the first broken rule is the error. -/
def create (hand : Hand) : Except ModelError Hand :=
  if hand.id.isEmpty then .error (.emptyField .handId)
  else if hand.site.isEmpty then .error (.emptyField .handSite)
  else if hand.table.isEmpty then .error (.emptyField .handTable)
  else if hand.ante < 0 then .error (.negativeAmount .ante)
  else if hand.seats.toList.all List.isEmpty then .error (.noOccupiedSeat hand.id)
  else .ok hand

/-- The player in a seat; none in a free or unknown one. -/
def playerAt? (hand : Hand) (seat : Seat) : Option Text := do
  let name := hand.seats.get (← seat.index?)
  if name.isEmpty then none else some name

/-- The players in the order of their seats. -/
def players (hand : Hand) : List Text := hand.seats.taken

/-- The winners in the order in which they won. -/
def winnerNames (hand : Hand) : List Text := hand.winners.taken

end Hand

end HandHistory
