import HandHistory.Site

/-!
# Rosters

While the files of a room are read, a roster gathers the players they name.
Every player is enrolled once; a hero mark sticks whatever follows it, whether
it was made on the roster itself or came with players gathered elsewhere. At
the end the roster is drained into a site.
-/

namespace HandHistory

structure Roster where
  site : Text
  players : Players := .empty

namespace Roster

/-- Enrols a name unless it is known; tells whether it is new. -/
def enrol (name : Text) (roster : Roster) : Except ModelError (Bool × Roster) :=
  if roster.players.hasName name then .ok (false, roster)
  else do
    let player ← Player.create name roster.site
    return (true, { roster with players := roster.players.add player })

/-- Marks a name as the hero, and enrols it first if need be. -/
def markHero (name : Text) (roster : Roster) : Except ModelError Roster :=
  match roster.players.find? name with
  | some player =>
    .ok { roster with players := roster.players.place true player }
  | none => do
    let player ← Player.create name roster.site
    return { roster with players := roster.players.add (player.flagged true) }

/-- Strikes a name off; the player it stood for, if any. -/
def erase (name : Text) (roster : Roster) : Option Player × Roster :=
  (roster.players.find? name, { roster with players := roster.players.remove name })

def hasName (name : Text) (roster : Roster) : Bool := roster.players.hasName name

def isHero (name : Text) (roster : Roster) : Bool :=
  (roster.players.find? name).elim false Player.isHero

def count (roster : Roster) : Nat := roster.players.count

/-- Folds in players gathered elsewhere. -/
def absorb (players : List Player) (roster : Roster) : Roster :=
  { roster with
    players := players.foldl (fun known player => known.absorb player) roster.players }

/-- Moves every player into a site and leaves the roster empty; tells how many
of them the site did not know. -/
def drainInto (site : Site) (roster : Roster) : Nat × Site × Roster :=
  let (count, site) := site.addPlayers roster.players.toList
  (count, site, { roster with players := .empty })

end Roster

end HandHistory
