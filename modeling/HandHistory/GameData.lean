import HandHistory.Game
import HandHistory.Room

/-!
# Game data

What is known of a game once its first hand has been read. The hand comes
first; where the room describes games in file names, the name of the file
overrules it on money type, name, variant and limit.
-/

namespace HandHistory

structure GameData where
  kind : GameKind
  gameId : Text
  gameName : Text
  table : Text
  maxSeats : Nat
  variant : Variant
  limit : Limit
  smallBlind : Float
  bigBlind : Float
  buyIn : Float
  isRealMoney : Bool
  start : Timestamp

namespace GameData

/-- The identifier of a game: that of its tournament, else the stem of its file,
else the name of its table. -/
def identifier (header : Header) (table : TableLine) (stem : Text) : Text :=
  match header.tournamentId? with
  | some id => id
  | none => if stem.isEmpty then table.table else stem

/-- What the first hand tells. -/
def ofHand (header : Header) (table : TableLine) (stem : Text) : GameData :=
  { kind := header.kind
    gameId := identifier header table stem
    gameName := header.tournamentName?.getD table.table
    table := table.table
    maxSeats := table.maxSeats
    variant := header.variant
    limit := header.limit
    smallBlind := header.smallBlind
    bigBlind := header.bigBlind
    buyIn := header.buyIn
    isRealMoney := table.isRealMoney?.getD true
    start := header.start }

/-- The values of a file name override those of the hand. -/
def overruledBy (stem : FileStem) (data : GameData) : GameData :=
  { data with
    isRealMoney := stem.isRealMoney
    gameName := stem.name
    variant := stem.variant
    limit := stem.limit }

/-- What the first hand and the file name tell together. -/
def gather (room : Room) (header : Header) (table : TableLine) (stem : Text) : GameData :=
  let data := ofHand header table stem
  (room.fileStem? stem).elim data data.overruledBy

/-- The stakes that the kind of the game asks for. -/
def stakes (data : GameData) : Except ModelError Stakes :=
  match data.kind with
  | .cash => Stakes.createCash data.smallBlind data.bigBlind
  | .tournament => Stakes.createTournament data.buyIn

/-- The game without hands that the data describes. -/
def emptyGame (site : Text) (data : GameData) : Except ModelError StakedGame := do
  let game ← Game.create
    { id := data.gameId
      site
      name := data.gameName
      variant := data.variant
      limit := data.limit
      isRealMoney := data.isRealMoney
      maxSeats := data.maxSeats
      start := data.start }
  let stakes ← data.stakes
  return { game, stakes }

theorem eq_of_emptyGame {data : GameData} {site : Text} {staked : StakedGame}
    (created : data.emptyGame site = .ok staked) :
    staked.game.hands = [] ∧ data.stakes = .ok staked.stakes := by
  unfold emptyGame at created
  simp only [bind, Except.bind] at created
  split at created
  · cases created
  · next game hgame =>
    split at created
    · cases created
    · next stakes hstakes =>
      cases created
      rw [Game.eq_of_create hgame]
      exact ⟨rfl, hstakes⟩

/-- A new game has no hands, as its name says. -/
theorem hands_emptyGame {data : GameData} {site : Text} {staked : StakedGame}
    (created : data.emptyGame site = .ok staked) : staked.game.hands = [] :=
  (eq_of_emptyGame created).1

/-- The stakes of a new game are those of its data. -/
theorem stakes_emptyGame {data : GameData} {site : Text} {staked : StakedGame}
    (created : data.emptyGame site = .ok staked) : data.stakes = .ok staked.stakes :=
  (eq_of_emptyGame created).2

end GameData

end HandHistory
