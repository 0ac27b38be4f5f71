import HandHistory.Proofs.Integrity

/-!
# One roster for all files

A load gives every file a roster of its own, moves the players of each into a site,
and lets them come together when all files are in. It could as well read the files
one after the other against one roster that all of them share: every file has the
same game, since no line asks who is enrolled, and in the end the same names are
known, with the same hero marks.

Both ways are compared with what the files mention. The order of the files counts
for neither, because a name is known, and a hero marked, if any file says so.
-/

namespace HandHistory

/-! ## Hero marks by name -/

namespace Players

/-- Whether the player of a name is the hero; none if there is no such player. -/
def mark? (name : Text) (players : Players) : Option Bool :=
  (players.find? name).map Player.isHero

/-- The marks are known by the names and the heroes. -/
theorem mark?_congr {first second : Players} {name : Text}
    (names : name ∈ first.names ↔ name ∈ second.names)
    (heroes : first.Hero name ↔ second.Hero name) : first.mark? name = second.mark? name := by
  rw [mem_names_iff, mem_names_iff] at names
  unfold Hero at heroes
  unfold mark?
  cases one : first.find? name with
  | none =>
    cases other : second.find? name with
    | none => rfl
    | some player => simp [one, other] at names
  | some player =>
    cases other : second.find? name with
    | none => simp [one, other] at names
    | some same =>
      have flags : player.isHero = true ↔ same.isHero = true := by simpa [one, other] using heroes
      exact congrArg some (Bool.eq_iff_iff.2 flags)

end Players

/-! ## Texts -/

/-- A text that is to be read, with the name and the stem of its file. -/
structure Source where
  stem : Text
  file : Text
  text : Text

namespace Source

/-- The game of a text that is read against a roster, and the roster afterwards. -/
def read (room : Room) (source : Source) (roster : Roster) :
    Except ParseError (Option StakedGame) × Roster :=
  let (game, session) := (History.readGame room source.stem).runFrom
    { cursor := .ofText source.file source.text, roster }
  (game, session.roster)

/-- The text read against an empty roster. -/
def readAlone (room : Room) (source : Source) : Except ParseError (Option StakedGame) × Roster :=
  source.read room { site := room.siteName }

/-- The site of a text that is read with a roster of its own. -/
def site? (room : Room) (source : Source) : Option Site :=
  match source.readAlone room with
  | (.ok (some game), roster) => some (HistoryFile.siteOf room game roster)
  | _ => none

/-- The site of texts of which each is read with a roster of its own. -/
def siteOfAll (room : Room) (sources : List Source) : Site :=
  ((sources.filterMap (site? room)).foldl Batch.addSite (Batch.empty room.siteName)).finish.2

/-- The games of texts that are read one after the other against one roster, and the
roster afterwards. -/
def readShared (room : Room) :
    List Source → Roster → List (Except ParseError (Option StakedGame)) × Roster
  | [], roster => ([], roster)
  | source :: sources, roster =>
    let (game, between) := source.read room roster
    let (games, after) := readShared room sources between
    (game :: games, after)

/-- The players whom a text mentions. -/
def mentions (room : Room) (source : Source) : List (Text × Bool) :=
  BodyLine.mentions (History.toldIn room (Text.lines source.text))

variable {room : Room} {source : Source} {sources order : List Source} {roster : Roster}

/-- A text that holds a game holds the same game against every roster, and the roster
gains whom the text mentions. -/
theorem read_of_game {game : StakedGame} (ready : roster.site ≠ [])
    (alone : (source.readAlone room).1 = .ok (some game)) :
    ∃ after, source.read room roster = (.ok (some game), after) ∧
      roster.Gains (source.mentions room) after := by
  obtain ⟨own, ownAfter, ownRun, -, ownGame⟩ := @History.runFrom_readGame room
    { cursor := .ofText source.file source.text, roster := { site := room.siteName } }
    source.stem room.siteName_ne_nil
  obtain ⟨shared, after, run, -, sharedGame⟩ := @History.runFrom_readGame room
    { cursor := .ofText source.file source.text, roster } source.stem ready
  have ownResult : own = .ok (some game) := by
    rw [readAlone, read, ownRun] at alone
    exact alone
  have result : shared = .ok (some game) := (sharedGame game).2 ((ownGame game).1 ownResult)
  rw [result] at run
  refine ⟨after.roster, ?_, @History.gains_readGame room _ after _ game ready run⟩
  rw [read, run]

/-- A site of the room with the players whom a text mentions. -/
structure IsSite (room : Room) (source : Source) (site : Site) : Prop where
  name : site.name = room.siteName
  names : ∀ name, name ∈ site.players.names ↔ ∃ flag, (name, flag) ∈ source.mentions room
  heroes : ∀ name, site.players.Hero name ↔ (name, true) ∈ source.mentions room

/-- With a roster of its own, a text that holds a game has a site. -/
theorem isSite_of_game {game : StakedGame} (alone : (source.readAlone room).1 = .ok (some game)) :
    ∃ site, site? room source = some site ∧ source.IsSite room site := by
  obtain ⟨after, same, gains⟩ :=
    @read_of_game room source { site := room.siteName } game room.siteName_ne_nil alone
  refine ⟨HistoryFile.siteOf room game after, by rw [site?, readAlone, same], ?_⟩
  rw [HistoryFile.siteOf_eq]
  constructor
  · rfl
  · intro name
    rw [gains.names name]
    exact or_iff_right (by simp [Players.names, Players.empty])
  · intro name
    rw [gains.heroes name]
    exact or_iff_right (by rintro ⟨player, ⟨⟩, -⟩)

/-- The run: texts with games have them in every order against one roster, which gains
whom any of them mentions. -/
theorem readShared_of_games (ready : roster.site ≠ [])
    (games : ∀ source ∈ sources, ∃ game, (source.readAlone room).1 = .ok (some game)) :
    (readShared room sources roster).1 = sources.map (fun source => (source.readAlone room).1) ∧
      roster.Gains (sources.flatMap (mentions room)) (readShared room sources roster).2 := by
  induction sources generalizing roster with
  | nil => exact ⟨rfl, .refl roster⟩
  | cons source sources ih =>
    obtain ⟨game, alone⟩ := games source List.mem_cons_self
    obtain ⟨between, first, gains⟩ := read_of_game ready alone
    have stillReady : between.site ≠ [] := gains.site ▸ ready
    obtain ⟨same, others⟩ := ih stillReady fun other hother =>
      games other (List.mem_cons_of_mem source hother)
    rw [readShared, first]
    constructor
    · rw [List.map_cons, alone, ← same]
    · rw [List.flatMap_cons]
      exact gains.trans others

/-- What holds of some of the sites just if their text tells it, some text tells. -/
theorem exists_site_iff {held : Site → Prop} {tells : Source → Prop}
    (games : ∀ source ∈ sources, ∃ game, (source.readAlone room).1 = .ok (some game))
    (each : ∀ source site, source.IsSite room site → (held site ↔ tells source)) :
    (∃ site ∈ sources.filterMap (site? room), held site) ↔ ∃ source ∈ sources, tells source := by
  constructor
  · rintro ⟨site, hsite, holds⟩
    obtain ⟨source, hsource, given⟩ := List.mem_filterMap.1 hsite
    obtain ⟨game, alone⟩ := games source hsource
    obtain ⟨own, same, isSite⟩ := isSite_of_game alone
    rw [given] at same
    cases same
    exact ⟨source, hsource, (each source site isSite).1 holds⟩
  · rintro ⟨source, hsource, told⟩
    obtain ⟨game, alone⟩ := games source hsource
    obtain ⟨site, given, isSite⟩ := isSite_of_game alone
    exact ⟨site, List.mem_filterMap.2 ⟨source, hsource, given⟩, (each source site isSite).2 told⟩

/-- The sum of the sites has the players whom any text mentions. -/
theorem names_heroes_siteOfAll
    (games : ∀ source ∈ sources, ∃ game, (source.readAlone room).1 = .ok (some game))
    (name : Text) :
    (name ∈ (siteOfAll room sources).players.names ↔
      ∃ source ∈ sources, ∃ flag, (name, flag) ∈ source.mentions room) ∧
    ((siteOfAll room sources).players.Hero name ↔
      ∃ source ∈ sources, (name, true) ∈ source.mentions room) := by
  have named : ∀ site ∈ sources.filterMap (site? room), site.name = room.siteName := by
    intro site hsite
    obtain ⟨source, hsource, given⟩ := List.mem_filterMap.1 hsite
    obtain ⟨game, alone⟩ := games source hsource
    obtain ⟨own, same, isSite⟩ := isSite_of_game alone
    rw [given] at same
    cases same
    exact isSite.name
  have sum := Batch.finish_isSumOf named
  constructor
  · rw [siteOfAll, sum.names name]
    exact exists_site_iff games fun source site isSite => isSite.names name
  · rw [siteOfAll, sum.heroes name]
    exact exists_site_iff games fun source site isSite => isSite.heroes name

/-- Texts that all hold a game are read with the same games in any order against one
roster that they share, and in the end this roster has the same names with the same hero
marks as the site to which each text contributes the players of a roster of its own. -/
theorem readShared_refines (room : Room) (sources order : List Source)
    (games : ∀ source ∈ sources, ∃ game, (source.readAlone room).1 = .ok (some game))
    (perm : order.Perm sources) :
    let shared := readShared room order { site := room.siteName }
    shared.1 = order.map (fun source => (source.readAlone room).1) ∧
    ∀ name, shared.2.players.mark? name = (siteOfAll room sources).players.mark? name := by
  intro shared
  have empty : ({ site := room.siteName } : Roster).site ≠ [] := room.siteName_ne_nil
  obtain ⟨same, gains⟩ := readShared_of_games empty fun source hsource =>
    games source (perm.mem_iff.1 hsource)
  refine ⟨same, fun name => ?_⟩
  obtain ⟨names, heroes⟩ := names_heroes_siteOfAll games name
  apply Players.mark?_congr
  · rw [names, gains.names name, or_iff_right (by simp [Players.names, Players.empty])]
    simp only [List.mem_flatMap, perm.mem_iff]
    exact exists_comm.trans (by simp)
  · rw [heroes, gains.heroes name, or_iff_right (by rintro ⟨player, ⟨⟩, -⟩)]
    simp only [List.mem_flatMap, perm.mem_iff]

/-- The cards of ann are shown in the second text only; the second text is read first. -/
theorem readShared_refines_two_texts :
    let first : Source := ⟨"a", "a.txt",
      "PokerStars Hand #1: Hold'em No Limit ($1/$2) - 2014/10/31 0:45:01\n" ++
      "Table 'A' 9-max\nSeat 1: ann ($5)\nSeat 2: bob ($5)\n"⟩
    let second : Source := ⟨"b", "b.txt",
      "PokerStars Hand #2: Hold'em No Limit ($1/$2) - 2014/10/31 0:46:01\n" ++
      "Table 'B' 9-max\nSeat 1: ann ($5)\nDealt to ann [Ah Kd]\n"⟩
    (readShared .pokerStars [second, first] { site := Room.pokerStars.siteName }).1 =
      [(second.readAlone .pokerStars).1, (first.readAlone .pokerStars).1] ∧
    (siteOfAll .pokerStars [first, second]).players.mark? "ann" = some true := by
  intro first second
  have games : ∀ source ∈ [first, second],
      ∃ game, (source.readAlone .pokerStars).1 = .ok (some game) := by
    have all : ∀ source ∈ [first, second],
        ((source.readAlone .pokerStars).1.toOption.join).isSome = true := by decide +kernel
    intro source hsource
    obtain ⟨game, found⟩ := Option.isSome_iff_exists.1 (all source hsource)
    refine ⟨game, ?_⟩
    cases read : (source.readAlone .pokerStars).1 with
    | error e =>
      rw [read] at found
      cases found
    | ok game? =>
      rw [read] at found
      exact congrArg Except.ok found
  obtain ⟨same, marks⟩ :=
    readShared_refines .pokerStars [first, second] [second, first] games (.swap first second [])
  refine ⟨same, ?_⟩
  rw [← marks]
  decide +kernel

end Source

end HandHistory
