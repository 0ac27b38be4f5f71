import HandHistory.Game
import HandHistory.Player

/-!
# Sites

A site is all that is known of one room: its players and its games, in the
order in which they were added. Merging appends the games of the second site
and adds those of its players that the first does not have; sites of different
rooms are not merged.
-/

namespace HandHistory

structure Site where
  name : Text
  players : Players := .empty
  games : List StakedGame := []

namespace Site

/-- Adds a player unless one of that name is known; tells whether it was added. -/
def addPlayer (player : Player) (site : Site) : Bool × Site :=
  (!site.players.hasName player.name, { site with players := site.players.add player })

/-- Adds players one after the other; tells how many of them were added. -/
def addPlayers (players : List Player) (site : Site) : Nat × Site :=
  players.foldl
    (fun (count, site) player =>
      let (isNew, site) := site.addPlayer player
      (if isNew then count + 1 else count, site))
    (0, site)

def addGame (game : StakedGame) (site : Site) : Site :=
  { site with games := site.games ++ [game] }

/-- Takes all players out of the site and leaves its games. -/
def takePlayers (site : Site) : List Player × Site :=
  (site.players.toList, { site with players := .empty })

def player? (name : Text) (site : Site) : Option Player := site.players.find? name

/-- The first hero in the order of names. -/
def hero? (site : Site) : Option Player := site.players.hero?

def cashGames (site : Site) : List StakedGame := site.games.filter StakedGame.isCash

def tournaments (site : Site) : List StakedGame :=
  site.games.filter fun staked => !staked.isCash

def gameCount (site : Site) : Nat := site.games.length

def handCount (site : Site) : Nat :=
  (site.games.map fun staked => staked.game.hands.length).foldr (· + ·) 0

def actionCount (site : Site) : Nat :=
  (site.games.map fun staked => staked.game.actionCount).foldr (· + ·) 0

def playerCount (site : Site) : Nat := site.players.count

/-- Whether the site has neither players nor games. -/
def isEmpty (site : Site) : Bool := site.playerCount == 0 && site.gameCount == 0

/-- Folds another site of the same room into this one. -/
def merge (site other : Site) : Except ModelError Site :=
  if other.name = site.name then
    let (_, site) := site.addPlayers other.players.toList
    .ok { site with games := site.games ++ other.games }
  else .error (.siteMismatch site.name other.name)

end Site

end HandHistory
