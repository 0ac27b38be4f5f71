import HandHistory.Amount
import HandHistory.BodyLine
import HandHistory.Hand
import HandHistory.Reading

/-!
# Drafts

A draft is a hand whose body is being read. Each line changes the draft, or the
roster and the events of the session, by the rule of its kind. A line about
somebody who has no seat is left out, with an event; a card that is none and a
player without a name end the reading.

Once the summary has begun, no line changes anything.
-/

namespace HandHistory

/-- The hand that a body belongs to. -/
structure HandContext where
  file : Text
  handId : Text
  cardDelimiter : Text

/-- What the lines read so far tell of a hand. -/
structure Draft where
  seatsOpen : Bool := true
  inSummary : Bool := false
  street : Street := .undealt
  ante : Float := 0
  seats : NameRow := .free
  heroCards : CardRow := .free
  board : CardRow := .free
  actions : List Action := []
  /-- The names of the winners, each once, in the order in which they won. -/
  winners : List Text := []

namespace Draft

/-- Whether a name stands in the row of seats. While a place is free, so does
the empty name. -/
def isSeated (name : Text) (draft : Draft) : Bool := draft.seats.toList.contains name

/-- The street an action of now belongs to: the first one, if none is dealt yet. -/
def currentStreet (draft : Draft) : Street :=
  if draft.street = .undealt then .preflop else draft.street

/-- The number of winners a hand has room for. -/
def winnerRoom : Nat := 10

def addWinner (name : Text) (draft : Draft) : Draft :=
  if draft.winners.contains name || winnerRoom ≤ draft.winners.length then draft
  else { draft with winners := draft.winners ++ [name] }

/-- The board with the cards that a street marker deals. -/
def boardWith (part : BoardPart) (cards board : CardRow) : CardRow :=
  let first : CardSlot := cards.get ⟨0, by decide⟩
  match part with
  | .flop => Vector.ofFn fun place => if place.val < 3 then cards.get place else board.get place
  | .turn => board.set 3 first (by decide)
  | .river => board.set 4 first (by decide)

def streetOf : BoardPart → Street
  | .flop => .flop
  | .turn => .turn
  | .river => .river

/-- The cards of a bracket group. -/
def cards (context : HandContext) (group : Text) : Reading CardRow :=
  match CardRow.ofGroup context.cardDelimiter group with
  | .ok cards => return cards
  | .error e => throw (.invalidCard context.file e.token)

/-- The cards of a bracket group, or the row given where there is no group. -/
def cardsOr (context : HandContext) (row : CardRow) : Option Text → Reading CardRow
  | some group => cards context group
  | none => return row

/-- Appends an action of a player, on the street of now. -/
def addAction (context : HandContext) (kind : ActionKind) (player : Text) (amount : Float)
    (draft : Draft) : Reading Draft := do
  let street := draft.currentStreet
  Reading.enrol context.file player
  let action ← Reading.ofModel context.file
    (Action.create context.handId player street kind draft.actions.length amount)
  return { draft with street, actions := draft.actions ++ [action] }

/-- A seat line: the player sits down, unless the seat is unknown or the name is empty. -/
def takeSeat (context : HandContext) (number player line : Text) (draft : Draft) :
    Reading Draft := do
  match (Seat.ofNumberText number).index? with
  | some index =>
    if player.isEmpty then
      Reading.log (.seatLineSkipped context.file line)
      return draft
    else
      Reading.enrol context.file player
      return { draft with seats := draft.seats.put player index }
  | none =>
    Reading.log (.seatLineSkipped context.file line)
    return draft

/-- A street marker with the cards it deals, if it shows any. -/
def takeBoard (context : HandContext) (part : BoardPart) (group? : Option Text) (draft : Draft) :
    Reading Draft := do
  match group? with
  | some group =>
    let cards ← cards context group
    return { draft with street := streetOf part, board := boardWith part cards draft.board }
  | none => return { draft with street := streetOf part }

/-- The cards of the hero, and with them the hero's name. -/
def takeDealt (context : HandContext) (player : Text) (group? : Option Text) (draft : Draft) :
    Reading Draft := do
  let heroCards ← cardsOr context draft.heroCards group?
  if !player.isEmpty then Reading.markHero context.file player
  return { draft with heroCards, street := draft.currentStreet }

def takeWinner (context : HandContext) (player line : Text) (draft : Draft) :
    Reading Draft := do
  if draft.isSeated player then
    Reading.enrol context.file player
    return draft.addWinner player
  else
    Reading.log (.winnerLineSkipped context.file line)
    return draft

def takeAction (context : HandContext) (kind : ActionKind) (player tail line : Text)
    (draft : Draft) : Reading Draft := do
  if draft.isSeated player then
    let amount ← if kind.hasAmount then Reading.ofLogged (Amount.last tail) else pure 0
    draft.addAction context kind player amount
  else
    Reading.log (.actionLineSkipped context.file line)
    return draft

/-- The draft after a line of a known kind. -/
def takeLine (context : HandContext) (draft : Draft) : BodyLine → Reading Draft
  | .blank | .brokenSeat | .marker | .blind | .noise => return draft
  | .summary => return { draft with inSummary := true }
  | .seat number player line => draft.takeSeat context number player line
  | .preflop => return { draft with street := .preflop }
  | .board part group? => draft.takeBoard context part group?
  | .ante line => do
    let ante ← Reading.ofLogged (Amount.last line)
    return { draft with ante }
  | .dealt player group? => draft.takeDealt context player group?
  | .winner player line => draft.takeWinner context player line
  | .action kind player tail line => draft.takeAction context kind player tail line

/-- The draft after one more line of the body. -/
def consume (context : HandContext) (raw : Text) (draft : Draft) : Reading Draft :=
  if draft.inSummary then return draft
  else
    let line := BodyLine.ofText draft.seatsOpen raw
    takeLine context { draft with seatsOpen := draft.seatsOpen && line.keepsSeatsOpen } line

/-- The winners without an action of their own. -/
def silentWinners (draft : Draft) : List Text :=
  draft.winners.filter fun name => !draft.actions.any fun action => action.player == name

/-- Gives every winner who did nothing else an action, so that each winner
occurs among the actions. -/
def addSilentWinners (context : HandContext) (draft : Draft) : Reading Draft :=
  draft.silentWinners.foldlM (fun draft name => draft.addAction context .silent name 0) draft

end Draft

end HandHistory
