import HandHistory.Document
import HandHistory.Site

/-!
# Entities as documents

Every entity has one form as a document, with the field names under which it is
exported. A free card slot is written `none`, a free seat as the empty text, and
a point in time as a text.
-/

namespace HandHistory

def Player.document (player : Player) : Document :=
  .record
    [("name", .text player.name),
     ("site_name", .text player.site),
     ("comments", .text player.comments),
     ("is_hero", .flag player.isHero)]

def Action.document (action : Action) : Document :=
  .record
    [("hand_id", .text action.handId),
     ("player_name", .text action.player),
     ("street", .text action.street.token),
     ("action_type", .text action.kind.token),
     ("index", .ofNat action.index),
     ("bet_amount", .amount action.amount)]

def CardRow.document (row : CardRow) : Document := .texts (row.toList.map CardSlot.token)

def NameRow.document (row : NameRow) : Document := .texts row.toList

def Hand.document (hand : Hand) : Document :=
  .record
    [("id", .text hand.id),
     ("game_type", .text hand.kind.text),
     ("site_name", .text hand.site),
     ("table_name", .text hand.table),
     ("button_seat", .text hand.button.name),
     ("max_seats", .ofNat hand.maxSeats),
     ("level", .ofNat hand.level),
     ("ante", .amount hand.ante),
     ("start_time", .text hand.start.text),
     ("hero_cards", hand.heroCards.document),
     ("board_cards", hand.board.document),
     ("seats", hand.seats.document),
     ("actions", .list (hand.actions.map Action.document)),
     ("winners", hand.winners.document)]

/-- The fields that every game has. -/
def Game.documentFields (game : Game) : List (Text × Document) :=
  [("id", .text game.id),
   ("site_name", .text game.site),
   ("name", .text game.name),
   ("variant", .text game.variant.text),
   ("limit", .text game.limit.text),
   ("is_real_money", .flag game.isRealMoney),
   ("max_seats", .ofNat game.maxSeats),
   ("start_date", .text game.start.text),
   ("hands", .list (game.hands.map Hand.document))]

def Game.document (game : Game) : Document := .record game.documentFields

/-- The fields that tell of the money of a game. -/
def Stakes.documentFields : Stakes → List (Text × Document)
  | .cash smallBlind bigBlind =>
    [("small_blind", .amount smallBlind), ("big_blind", .amount bigBlind)]
  | .tournament buyIn => [("buy_in", .amount buyIn)]

def StakedGame.document (staked : StakedGame) : Document :=
  .record (staked.game.documentFields ++ staked.stakes.documentFields)

def Players.document (players : Players) : Document :=
  .record (players.toList.map fun player => (player.name, player.document))

def Site.document (site : Site) : Document :=
  .record
    [("name", .text site.name),
     ("players", site.players.document),
     ("cash_games", .list (site.cashGames.map StakedGame.document)),
     ("tournaments", .list (site.tournaments.map StakedGame.document))]

end HandHistory
