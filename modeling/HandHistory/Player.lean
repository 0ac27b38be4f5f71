import HandHistory.Error

/-!
# Players and sets of players

A player of a room is known by name; neither name nor room is ever empty. A set
of players keeps them in the order of their names, by code point, with at most
one player of each name; the order is part of the type, so two sets with the
same players are equal.

Adding a player of a known name never replaces the known one. What a newcomer
may do is pass on the hero flag, which once raised stays raised.
-/

namespace HandHistory

structure Player where
  name : Text
  site : Text
  comments : Text := []
  isHero : Bool := false
  name_ne_nil : name ≠ []
  site_ne_nil : site ≠ []
  deriving DecidableEq, Repr

namespace Player

/-- A player without comments, not the hero. -/
def create (name site : Text) : Except ModelError Player :=
  if hname : name = [] then .error (.emptyField .playerName)
  else if hsite : site = [] then .error (.emptyField .playerSite)
  else .ok { name, site, name_ne_nil := hname, site_ne_nil := hsite }

/-- The same player, a hero also if `flag` is raised. -/
def flagged (flag : Bool) (player : Player) : Player :=
  { player with isHero := player.isHero || flag }

@[simp] theorem name_flagged (flag : Bool) (player : Player) :
    (player.flagged flag).name = player.name := rfl

@[simp] theorem flagged_false (player : Player) : player.flagged false = player := by
  simp [flagged]

end Player

/-- Players in the order of their names, each name once. -/
structure Players where
  toList : List Player
  ordered : toList.Pairwise fun a b => a.name < b.name

namespace Players

/-- Puts a newcomer in its place. A player of that name who is there already
stays, and takes over the flag. -/
def placeIn (flag : Bool) (newcomer : Player) : List Player → List Player
  | [] => [newcomer]
  | player :: players =>
    if newcomer.name < player.name then newcomer :: player :: players
    else if player.name < newcomer.name then player :: placeIn flag newcomer players
    else player.flagged flag :: players

theorem name_mem_placeIn {flag : Bool} {newcomer p : Player} {players : List Player}
    (h : p ∈ placeIn flag newcomer players) :
    p.name = newcomer.name ∨ ∃ q ∈ players, q.name = p.name := by
  induction players with
  | nil =>
    simp only [placeIn, List.mem_singleton] at h
    exact Or.inl (h ▸ rfl)
  | cons player players ih =>
    simp only [placeIn] at h
    split at h
    · rcases List.mem_cons.1 h with rfl | h
      · exact Or.inl rfl
      · exact Or.inr ⟨p, h, rfl⟩
    · split at h
      · rcases List.mem_cons.1 h with rfl | h
        · exact Or.inr ⟨p, List.mem_cons_self, rfl⟩
        · rcases ih h with same | ⟨q, hq, same⟩
          · exact Or.inl same
          · exact Or.inr ⟨q, List.mem_cons_of_mem _ hq, same⟩
      · rcases List.mem_cons.1 h with rfl | h
        · exact Or.inr ⟨player, List.mem_cons_self, rfl⟩
        · exact Or.inr ⟨p, List.mem_cons_of_mem _ h, rfl⟩

theorem ordered_placeIn (flag : Bool) (newcomer : Player) {players : List Player}
    (ordered : players.Pairwise fun a b => a.name < b.name) :
    (placeIn flag newcomer players).Pairwise fun a b => a.name < b.name := by
  induction players with
  | nil => simp [placeIn]
  | cons player players ih =>
    have rest := (List.pairwise_cons.1 ordered).2
    have first := (List.pairwise_cons.1 ordered).1
    simp only [placeIn]
    split
    · next before =>
      refine List.pairwise_cons.2 ⟨fun q hq => ?_, ordered⟩
      rcases List.mem_cons.1 hq with rfl | hq
      · exact before
      · exact List.lt_trans before (first q hq)
    · split
      · next after =>
        refine List.pairwise_cons.2 ⟨fun q hq => ?_, ih rest⟩
        rcases name_mem_placeIn hq with same | ⟨r, hr, same⟩
        · exact same ▸ after
        · exact same ▸ first r hr
      · exact List.pairwise_cons.2 ⟨fun q hq => first q hq, rest⟩

def empty : Players := ⟨[], List.Pairwise.nil⟩

def place (flag : Bool) (newcomer : Player) (players : Players) : Players :=
  ⟨placeIn flag newcomer players.toList, ordered_placeIn flag newcomer players.ordered⟩

/-- Adds a player unless one of that name is there. -/
def add (newcomer : Player) (players : Players) : Players := players.place false newcomer

/-- Adds a player, or raises the hero flag of the one of that name if the
newcomer is a hero. -/
def absorb (newcomer : Player) (players : Players) : Players :=
  players.place newcomer.isHero newcomer

/-- The player of a name. -/
def find? (name : Text) (players : Players) : Option Player :=
  players.toList.find? fun player => player.name == name

def hasName (name : Text) (players : Players) : Bool := (players.find? name).isSome

def remove (name : Text) (players : Players) : Players :=
  ⟨players.toList.filter fun player => player.name != name, players.ordered.filter _⟩

def count (players : Players) : Nat := players.toList.length

def names (players : Players) : List Text := players.toList.map Player.name

/-- The first hero in the order of names. -/
def hero? (players : Players) : Option Player := players.toList.find? Player.isHero

@[ext] theorem ext {a b : Players} (same : a.toList = b.toList) : a = b := by
  cases a
  cases b
  cases same
  rfl

theorem names_nodup (players : Players) : players.names.Nodup := by
  refine List.pairwise_map.2 (players.ordered.imp fun before same => ?_)
  rw [same] at before
  exact List.lt_irrefl _ before

end Players

end HandHistory
