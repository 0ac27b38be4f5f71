import HandHistory.Proofs.Loading
import HandHistory.Proofs.Rosters

/-!
# Whatever a site refers to is there

The names in the hands of a site and the players of the site take different ways
through a load: the hands go into games, and the players from the roster of a file
into its site, out of it again into the roster of the batch, and at last into the
site of all files. `Site.Integral` says that they fit together in the end.

For one file it follows from what the roster gains while the file is read. For a
directory it is a matter of the sum alone: nobody is lost when players come together,
and nobody comes in who is not a player of some file.
-/

namespace HandHistory

/-- Everybody whom a hand names is among the players. -/
structure Hand.Integral (room : Room) (players : Players) (hand : Hand) : Prop where
  site : hand.site = room.siteName
  seated : ∀ name ∈ hand.seats.toList, name ≠ [] → name ∈ players.names
  actors : ∀ action ∈ hand.actions, action.player ∈ players.names
  winners : ∀ name ∈ hand.winners.toList, name ≠ [] → name ∈ players.names

/-- The game is described, and everybody whom its hands name is among the players. -/
structure Game.Integral (room : Room) (players : Players) (game : Game) : Prop where
  id : game.id ≠ []
  site : game.site = room.siteName
  name : game.name ≠ []
  maxSeats : 1 ≤ game.maxSeats
  played : game.hands ≠ []
  hands : ∀ hand ∈ game.hands, hand.Integral room players

/-- Everything that a site refers to is there, all of it is of one room, and its players
are those whom the lines of its files mention. -/
structure Site.Integral (room : Room) (said : List BodyLine) (site : Site) : Prop where
  name : site.name = room.siteName
  ofSite : site.players.OfSite room.siteName
  games : ∀ staked ∈ site.games, staked.game.Integral room site.players
  names : ∀ name, name ∈ site.players.names ↔
    ∃ line ∈ said, (∃ place, line.seating? = some (place, name)) ∨ line.hero? = some name
  heroes : ∀ name, site.players.Hero name ↔ ∃ line ∈ said, line.hero? = some name

theorem Players.ofSite_foldl_absorb {site : Text} {newcomers : List Player} {players : Players}
    (ofSite : players.OfSite site) (same : ∀ newcomer ∈ newcomers, newcomer.site = site) :
    (newcomers.foldl (fun known player => known.absorb player) players).OfSite site := by
  induction newcomers generalizing players with
  | nil => exact ofSite
  | cons newcomer newcomers ih =>
    have first := same newcomer List.mem_cons_self
    refine ih (fun _ inside => site_of_mem_placeIn ofSite first inside) fun other hother => ?_
    exact same other (List.mem_cons_of_mem newcomer hother)

theorem Hand.Integral.mono {room : Room} {players others : Players} {hand : Hand}
    (integral : hand.Integral room players)
    (known : ∀ name ∈ players.names, name ∈ others.names) : hand.Integral room others where
  site := integral.site
  seated := fun name sits named => known name (integral.seated name sits named)
  actors := fun action acts => known action.player (integral.actors action acts)
  winners := fun name wins named => known name (integral.winners name wins named)

theorem Game.Integral.mono {room : Room} {players others : Players} {game : Game}
    (integral : game.Integral room players)
    (known : ∀ name ∈ players.names, name ∈ others.names) : game.Integral room others :=
  { integral with hands := fun hand hhand => (integral.hands hand hhand).mono known }

/-! ## Hands and games -/

/-- In a hand that keeps the rules, whoever acts or wins sits at the table. -/
theorem Hand.Sound.integral {room : Room} {players : Players} {hand : Hand} (sound : hand.Sound)
    (site : hand.site = room.siteName)
    (seated : ∀ name ∈ hand.seats.toList, name ≠ [] → name ∈ players.names) :
    hand.Integral room players where
  site := site
  seated := seated
  actors := by
    intro action acts
    obtain ⟨index, found⟩ := List.getElem?_of_mem acts
    have fits := sound.actionsFit index action found
    exact seated action.player fits.seated fits.named
  winners := by
    intro name wins named
    have taken : name ∈ hand.winnerNames :=
      List.mem_filter.2 ⟨wins, by simpa using named⟩
    exact seated name (sound.winnersSeated name taken) named

theorem Game.create_eq_ok {game created : Game} (h : game.create = .ok created) :
    created = game ∧ game.id ≠ [] ∧ game.name ≠ [] ∧ 1 ≤ game.maxSeats := by
  refine ⟨eq_of_create h, ?_⟩
  rw [create] at h
  split at h
  · cases h
  · next hid =>
    split at h
    · cases h
    · split at h
      · cases h
      · next hname =>
        split at h
        · cases h
        · next hseats => exact ⟨by simpa using hid, by simpa using hname, by omega⟩

theorem GameData.emptyGame_eq_ok {data : GameData} {site : Text} {staked : StakedGame}
    (created : data.emptyGame site = .ok staked) :
    staked.game.id ≠ [] ∧ staked.game.site = site ∧ staked.game.name ≠ [] ∧
      1 ≤ staked.game.maxSeats := by
  rw [emptyGame] at created
  simp only [bind, Except.bind] at created
  split at created
  · cases created
  · next game made =>
    split at created
    · cases created
    · cases created
      obtain ⟨rfl, id, name, maxSeats⟩ := Game.create_eq_ok made
      exact ⟨id, rfl, name, maxSeats⟩

namespace History

/-- The players at the table of a hand are those to whom its block gives a place. -/
theorem seated_of_readBlock {room : Room} {file : Text} {block : List Text} {record : HandRecord}
    (read : readBlock room file block = .ok record) :
    record.hand.site = room.siteName ∧ ∀ name ∈ record.hand.seats.toList, name ≠ [] →
      ∃ line ∈ told block, ∃ place, line.seating? = some (place, name) := by
  match block with
  | [] => cases read
  | [header] => exact (readBlock_singleton_ne_ok room file header record read).elim
  | header :: line :: body =>
    cases headerRead : room.readHeader file header with
    | error e =>
      rw [readBlock_of_header_error headerRead] at read
      cases read
    | ok logged =>
      rw [readBlock_cons_cons headerRead] at read
      cases tableRead : room.readTableLine file line with
      | error e =>
        rw [tableRead] at read
        cases read
      | ok table =>
        rw [tableRead, Except.bind] at read
        rcases @bodyHand_cases room file logged.value table body (Room.handId_ne_nil headerRead)
          with ⟨-, e, failed⟩ | ⟨-, hand, -, site, -, seats, -, made⟩
        · rw [failed] at read
          cases read
        · rw [made] at read
          cases created : hand.create with
          | error e =>
            rw [created] at read
            cases read
          | ok same =>
            rw [created] at read
            cases read
            obtain ⟨rfl, -⟩ := Hand.create_eq_ok created
            refine ⟨site, fun name sits named => ?_⟩
            rw [seats] at sits
            rcases BodyLine.mem_foldl_sit sits with free | seated
            · rw [NameRow.free, Vector.toList_replicate] at free
              exact absurd (List.eq_of_mem_replicate free) named
            · exact seated

/-- Every hand of a file is that of one of its blocks. -/
theorem exists_block_of_mem {room : Room} {file : Text} {cut : List (List Text)}
    {records : List HandRecord} {record : HandRecord}
    (all : List.Forall₂ (fun block record => readBlock room file block = .ok record) cut records)
    (inside : record ∈ records) : ∃ block ∈ cut, readBlock room file block = .ok record := by
  induction all with
  | nil => cases inside
  | cons read others ih =>
    rcases List.mem_cons.1 inside with rfl | later
    · exact ⟨_, List.mem_cons_self, read⟩
    · obtain ⟨block, hblock, read⟩ := ih later
      exact ⟨block, List.mem_cons_of_mem _ hblock, read⟩

/-- What the blocks of a file tell. -/
def toldIn (room : Room) (lines : List Text) : List BodyLine :=
  (blocks room.isHandStart lines).flatMap told

/-- A game that is read from a file is integral for the players whom the file brings. -/
theorem integral_readGame {room : Room} {stem : Text} {session after : Session}
    {game : StakedGame} (ready : session.roster.site ≠ [])
    (run : (readGame room stem).runFrom session = (.ok (some game), after)) :
    game.game.Integral room after.roster.players := by
  have gains := gains_readGame ready run
  have sound := yields_readGame room stem session (some game) after run game rfl
  obtain ⟨result, last, same, -, something⟩ := @runFrom_readGame room session stem ready
  rw [run] at same
  cases same
  obtain ⟨records, all, first, others, empty, split, described, rfl⟩ := (something game).1 rfl
  obtain ⟨id, site, name, maxSeats⟩ := GameData.emptyGame_eq_ok described
  refine ⟨id, site, name, maxSeats, by simp [split], fun hand hhand => ?_⟩
  obtain ⟨record, hrecord, rfl⟩ := List.mem_map.1 hhand
  obtain ⟨block, hblock, read⟩ := exists_block_of_mem all hrecord
  obtain ⟨ofRoom, seated⟩ := seated_of_readBlock read
  refine (sound _ hhand).integral ofRoom fun other sits named => ?_
  obtain ⟨line, toldThere, place, given⟩ := seated other sits named
  have inFile : line ∈ (blocks room.isHandStart session.cursor.rest).flatMap told :=
    List.mem_flatMap.2 ⟨block, hblock, toldThere⟩
  exact (gains.names other).2
    (Or.inr (BodyLine.exists_mem_mentions.2 ⟨line, inFile, Or.inl ⟨place, given⟩⟩))

end History

/-! ## Files -/

namespace HistoryFile

/-- What the lines of a file tell in its blocks. -/
def said (room : Room) (tree : FileTree) (path : Text) : List BodyLine :=
  match tree.read path with
  | .ok bytes => History.toldIn room (Text.lines (Text.Utf8.decode bytes))
  | .error _ => []

/-- The site of a single file. -/
theorem integral_of_site? {room : Room} {tree : FileTree} {path : Text} {site : Site}
    (given : site? room tree path = some site) : site.Integral room (said room tree path) := by
  obtain ⟨bytes, game, after, bytesRead, run, rfl⟩ := exists_of_site? given
  have ready : ({ site := room.siteName } : Roster).site ≠ [] := room.siteName_ne_nil
  have gains := @History.gains_readGame room _ after _ game ready run
  have told : said room tree path =
      (blocks room.isHandStart (Text.lines (Text.Utf8.decode bytes))).flatMap History.told := by
    rw [said, bytesRead]
    rfl
  rw [told, siteOf_eq]
  constructor
  · rfl
  · have nobody : Players.empty.OfSite room.siteName := by
      rintro player ⟨⟩
    have ofSite := gains.ofSite nobody
    rwa [gains.site] at ofSite
  · intro staked only
    rw [List.mem_singleton.1 only]
    exact @History.integral_readGame room _ _ after game ready run
  · intro name
    have absent : ¬ name ∈ Players.empty.names := by simp [Players.names, Players.empty]
    rw [gains.names name, BodyLine.exists_mem_mentions]
    exact or_iff_right absent
  · intro name
    have absent : ¬ Players.empty.Hero name := by
      rintro ⟨player, ⟨⟩, -⟩
    rw [gains.heroes name, BodyLine.mem_mentions_true]
    exact or_iff_right absent

/-- The files that a site is made of: those with a site of their own. -/
def merged (room : Room) (tree : FileTree) (paths : List Text) : List Text :=
  paths.filter fun path => (site? room tree path).isSome

/-- What holds of some of the sites just if some line of their files tells it, is told in
the files that are merged. -/
theorem exists_site_iff {room : Room} {tree : FileTree} {paths : List Text} {held : Site → Prop}
    {tells : BodyLine → Prop}
    (each : ∀ path site, site? room tree path = some site →
      (held site ↔ ∃ line ∈ said room tree path, tells line)) :
    (∃ site ∈ paths.filterMap (site? room tree), held site) ↔
      ∃ line ∈ (merged room tree paths).flatMap (said room tree), tells line := by
  constructor
  · rintro ⟨site, hsite, holds⟩
    obtain ⟨path, hpath, given⟩ := List.mem_filterMap.1 hsite
    obtain ⟨line, hline, told⟩ := (each path site given).1 holds
    have useful : path ∈ merged room tree paths :=
      List.mem_filter.2 ⟨hpath, by rw [given]; rfl⟩
    exact ⟨line, List.mem_flatMap.2 ⟨path, useful, hline⟩, told⟩
  · rintro ⟨line, hline, told⟩
    obtain ⟨path, useful, hline⟩ := List.mem_flatMap.1 hline
    obtain ⟨hpath, isSome⟩ := List.mem_filter.1 useful
    obtain ⟨site, given⟩ := Option.isSome_iff_exists.1 isSome
    exact ⟨site, List.mem_filterMap.2 ⟨path, hpath, given⟩,
      (each path site given).2 ⟨line, hline, told⟩⟩

/-- The site of many files. -/
theorem integral_sum (room : Room) (tree : FileTree) (paths : List Text) :
    ((paths.filterMap (site? room tree)).foldl Batch.addSite
      (Batch.empty room.siteName)).finish.2.Integral room
        ((merged room tree paths).flatMap (said room tree)) := by
  have each : ∀ part ∈ paths.filterMap (site? room tree),
      ∃ path, site? room tree path = some part := by
    intro part hpart
    obtain ⟨path, -, given⟩ := List.mem_filterMap.1 hpart
    exact ⟨path, given⟩
  have named : ∀ part ∈ paths.filterMap (site? room tree), part.name = room.siteName := by
    intro part hpart
    obtain ⟨path, given⟩ := each part hpart
    exact name_of_site? given
  have sum := Batch.finish_isSumOf named
  constructor
  · rw [Batch.finish_foldl_addSite named]
  · rw [Batch.finish_foldl_addSite named]
    refine Players.ofSite_foldl_absorb (by rintro player ⟨⟩) fun player hplayer => ?_
    obtain ⟨part, hpart, inside⟩ := List.mem_flatMap.1 hplayer
    obtain ⟨path, given⟩ := each part hpart
    exact (integral_of_site? given).ofSite player inside
  · intro staked hstaked
    have games := congrArg Site.games (Batch.finish_foldl_addSite named)
    rw [games] at hstaked
    obtain ⟨part, hpart, inside⟩ := List.mem_flatMap.1 hstaked
    obtain ⟨path, given⟩ := each part hpart
    refine ((integral_of_site? given).games staked inside).mono fun name known => ?_
    exact (sum.names name).2 ⟨part, hpart, known⟩
  · intro name
    rw [sum.names name]
    exact exists_site_iff fun path part given => (integral_of_site? given).names name
  · intro name
    rw [sum.heroes name]
    exact exists_site_iff fun path part given => (integral_of_site? given).heroes name

end HistoryFile

/-! ## Loads -/

namespace Loader

/-- A site without anything refers to nothing. -/
theorem integral_nothing (room : Room) : Site.Integral room [] { name := room.siteName } where
  name := rfl
  ofSite := by rintro player ⟨⟩
  games := by simp
  names := by simp [Players.names, Players.empty]
  heroes := by simp [Players.Hero, Players.find?, Players.empty]

variable {runtime : Runtime}

/-- The files that make up the site of a load: none if it is stopped, if it has no pool or
if its directory does not have the shape of the room. -/
def mergedFiles (tree : FileTree) (dir : Text) (stopsWhenCounted : Bool)
    (shared : SharedPool runtime) (loader : Loader runtime) : List Text :=
  if stopsWhenCounted then []
  else HistoryFile.merged loader.room tree (loader.files tree dir shared)

theorem integral_load (loader : Loader runtime) (tree : FileTree) (dir : Text)
    (stopsWhenCounted : Bool) (shared : SharedPool runtime) :
    (loader.load tree dir stopsWhenCounted shared).1.site.Integral loader.room
      ((loader.mergedFiles tree dir stopsWhenCounted shared).flatMap
        (HistoryFile.said loader.room tree)) := by
  cases stopsWhenCounted with
  | true =>
    rw [site_load_stopped]
    exact integral_nothing loader.room
  | false =>
    rw [site_load]
    exact HistoryFile.integral_sum loader.room tree (loader.files tree dir shared)

/-- Whatever the loader has done before, a directory and a single file give an integral
site: all names in its hands are those of its players, and its players are those whom
the seats and the deals of the merged files name. -/
theorem load_integral (room : Room) (pool? : Option (Pool runtime))
    (steps : List (LoaderStep runtime)) (tree : FileTree) :
    let loader := after room pool? steps
    (∀ dir stopsWhenCounted shared,
      (loader.load tree dir stopsWhenCounted shared).1.site.Integral room
        ((loader.mergedFiles tree dir stopsWhenCounted shared).flatMap
          (HistoryFile.said room tree))) ∧
    ∀ path site, (loader.loadFile tree path).value = .finished (some site) →
      site.Integral room (HistoryFile.said room tree path) := by
  intro loader
  have sameRoom : loader.room = room := (sameLoader_after room pool? steps).room
  constructor
  · intro dir stopsWhenCounted shared
    have integral := integral_load loader tree dir stopsWhenCounted shared
    rwa [sameRoom] at integral
  · intro path site made
    rw [loadFile_after] at made
    refine HistoryFile.integral_of_site? ?_
    rw [HistoryFile.site?, made]
    rfl

/-- A file in which ann takes a seat and bob is dealt cards. -/
theorem load_integral_of_hero :
    let text : Text := "PokerStars Hand #1: Hold'em No Limit ($1/$2) - 2014/10/31 0:45:01\n" ++
      "Table 'A' 9-max\nSeat 1: ann ($5)\nDealt to bob [Ah Kd]\nann: folds\n"
    let file : FileNode := .file (text.map fun c => c.toNat.toUInt8)
    let tree : FileTree := { root := .dir [("d".toList, .dir [("a.txt".toList, file)])] }
    let loader : Loader .sequential := after .pokerStars none [.stop]
    ∃ site, (loader.loadFile tree "d/a.txt").value = .finished (some site) ∧
      site.players.Hero "bob" ∧ ¬ site.players.Hero "ann" ∧
      ∀ staked ∈ site.games, ∀ hand ∈ staked.game.hands, ∀ action ∈ hand.actions,
        action.player ∈ site.players.names := by
  intro text file tree loader
  have said : HistoryFile.said .pokerStars tree "d/a.txt" =
      [.seat "1" "ann" "Seat 1: ann ($5)", .dealt "bob" (some "Ah Kd".toList),
        .action .fold "ann" " " "ann: folds"] := by decide +kernel
  have isSome : ((loader.loadFile tree "d/a.txt").value.toOption.join).isSome = true := by
    decide +kernel
  obtain ⟨site, given⟩ := Option.isSome_iff_exists.1 isSome
  have made : (loader.loadFile tree "d/a.txt").value = .finished (some site) := by
    cases outcome : (loader.loadFile tree "d/a.txt").value with
    | finished site? =>
      rw [outcome] at given
      exact congrArg Outcome.finished given
    | abandoned =>
      rw [outcome] at given
      cases given
  have integral := (load_integral .pokerStars none [.stop] tree).2 "d/a.txt" site made
  rw [said] at integral
  refine ⟨site, made, (integral.heroes _).2 ?_, ?_, ?_⟩
  · exact ⟨_, List.mem_cons_of_mem _ List.mem_cons_self, rfl⟩
  · rw [integral.heroes]
    decide +kernel
  · intro staked hstaked hand hhand
    exact ((integral.games staked hstaked).hands hand hhand).actors

end Loader

end HandHistory
