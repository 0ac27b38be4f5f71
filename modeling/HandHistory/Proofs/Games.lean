import HandHistory.Proofs.Blocks
import Mathlib.Data.List.DropRight
import Mathlib.Data.List.Forall2
import Mathlib.Data.List.TakeWhile

/-!
# Games

A file is exactly its blocks. It has a game if and only if every block, read by
itself, has a hand and the first one describes a game; the hands of the game are
those of the blocks, and everything else of it is what the first block and the
stem of the file tell.

The cursor is what carries this through the file: after every hand it stands
inside the block it has just read, so the next search finds the next block.
-/

namespace HandHistory

namespace StakedGame

/-- The game with more hands behind the others. -/
def addHands (hands : List Hand) (staked : StakedGame) : StakedGame :=
  { staked with game := { staked.game with hands := staked.game.hands ++ hands } }

@[simp] theorem addHands_nil (staked : StakedGame) : staked.addHands [] = staked := by
  simp [addHands]

theorem addHands_cons (hand : Hand) (hands : List Hand) (staked : StakedGame) :
    staked.addHands (hand :: hands) = (staked.addHand hand).addHands hands := by
  simp [addHands, addHand, Game.addHand]

theorem addHands_of_nil {staked : StakedGame} (none : staked.game.hands = [])
    (hands : List Hand) :
    staked.addHands hands = { staked with game := { staked.game with hands } } := by
  simp [addHands, none]

end StakedGame

/-- A search ends where the same search would end at once. -/
theorem Cursor.dropWhile_rest_of_seek {cursor there : Cursor} {wanted : Text → Bool} {line : Text}
    {ahead : List Text}
    (found : cursor.rest.dropWhile (fun line => !wanted line) = line :: ahead)
    (sought : cursor.seek wanted = (true, there)) :
    there.file = cursor.file ∧ there.rest.dropWhile (fun line => !wanted line) = line :: ahead := by
  obtain ⟨place, ends, on⟩ := seek_of_some found
  rw [sought] at ends
  cases ends
  refine ⟨on.file_eq, ?_⟩
  rw [on.rest_eq, ← found, List.dropWhile_idempotent]

namespace History

open Reading

variable {room : Room} {session after : Session}

/-- The blocks that a file still holds behind a hand. -/
theorem Behind.blocks_rest {ahead : List Text}
    (behind : Behind room session (ahead.dropWhile fun line => !room.isHandStart line) after) :
    blocks room.isHandStart after.cursor.rest = blocks room.isHandStart ahead := by
  rw [behind.left.blocks_eq, blocks_dropWhile]

theorem Behind.file_eq {ahead : List Text} (behind : Behind room session ahead after) :
    after.cursor.file = session.cursor.file :=
  behind.left.file_eq

/-- The lines that are left bound the number of hands that are left. -/
theorem Behind.length_blocks_le {ahead : List Text} (behind : Behind room session ahead after) :
    (blocks room.isHandStart after.cursor.rest).length ≤ after.cursor.ahead.length + 1 := by
  obtain ⟨-, line, on, -⟩ := behind
  rw [length_blocks, on.rest_eq, on.ahead_eq]
  exact List.countP_le_length

theorem blocks_eq_nil {lines : List Text}
    (absent : lines.dropWhile (fun line => !room.isHandStart line) = []) :
    blocks room.isHandStart lines = [] := by
  rw [← blocks_dropWhile, absent]
  rfl

/-- The hand that a search has found is accepted just as its block is. -/
theorem runFrom_readHand_of_seek {header : Text} {ahead : List Text}
    (ready : session.roster.site ≠ [])
    (hrest : session.cursor.rest.dropWhile (fun line => !room.isHandStart line) =
      header :: ahead) :
    ∃ there result after, session.cursor.seek room.isHandStart = (true, there) ∧
      (readHand room).runFrom { session with cursor := there } = (result, after) ∧
      (∀ record, result = .ok record ↔ readBlock room session.cursor.file
        (header :: ahead.takeWhile fun line => !room.isHandStart line) = .ok record) ∧
      ∀ record, result = .ok record →
        Behind room session (ahead.dropWhile fun line => !room.isHandStart line) after := by
  obtain ⟨there, sought, -⟩ := Cursor.seek_of_some hrest
  obtain ⟨sameFile, standing⟩ := Cursor.dropWhile_rest_of_seek hrest sought
  obtain ⟨result, after, run, accepted, behind, -⟩ :=
    @runFrom_readHand room { session with cursor := there } header ahead ready standing
  rw [sameFile] at accepted
  refine ⟨there, result, after, sought, run, accepted, ?_⟩
  intro record ok
  obtain ⟨site, line, onLast, inside⟩ := behind record ok
  exact ⟨site, line, sameFile ▸ onLast, inside⟩

/-- The hands that are left are those of the blocks that are left, and one block
without a hand costs the game. -/
theorem runFrom_readOthers {bound : Nat} {game : StakedGame} (ready : session.roster.site ≠ [])
    (enough : (blocks room.isHandStart session.cursor.rest).length ≤ bound) :
    ∃ result after, (readOthers room bound game).runFrom session = (result, after) ∧
      ∀ final, result = .ok final ↔ ∃ records,
        List.Forall₂ (fun block record => readBlock room session.cursor.file block = .ok record)
          (blocks room.isHandStart session.cursor.rest) records ∧
        final = game.addHands (records.map HandRecord.hand) := by
  induction bound generalizing session game with
  | zero =>
    rw [List.eq_nil_of_length_eq_zero (Nat.le_zero.1 enough)]
    exact ⟨.ok game, session, rfl, fun final => by simp [eq_comm]⟩
  | succ bound ih =>
    rw [readOthers]
    rw [runFrom_bind_of_ok (runFrom_seek _ session)]
    cases hrest : session.cursor.rest.dropWhile fun line => !room.isHandStart line with
    | nil =>
      rw [Cursor.seek_of_none hrest, blocks_eq_nil hrest]
      exact ⟨.ok game, _, rfl, fun final => by simp [eq_comm]⟩
    | cons header ahead =>
      obtain ⟨-, found⟩ := blocks_of_dropWhile_cons hrest
      obtain ⟨there, result, after, sought, run, accepted, behind⟩ :=
        runFrom_readHand_of_seek ready hrest
      rw [found, List.length_cons] at enough
      rw [sought, if_pos rfl, found]
      cases result with
      | error e =>
        refine ⟨_, _, runFrom_bind_of_error run _, ?_⟩
        intro final
        constructor
        · rintro ⟨⟩
        · rintro ⟨records, all, -⟩
          cases all with
          | cons first others => cases (accepted _).2 first
      | ok record =>
        have left := behind record rfl
        have fewer : (blocks room.isHandStart after.cursor.rest).length ≤ bound := by
          rw [left.blocks_rest]
          omega
        obtain ⟨last, afterLast, rest, spec⟩ :=
          @ih after (game.addHand record.hand) (left.site ▸ ready) fewer
        refine ⟨last, afterLast, (runFrom_bind_of_ok run _).trans rest, ?_⟩
        intro final
        rw [spec final, left.blocks_rest, left.file_eq]
        constructor
        · rintro ⟨records, all, rfl⟩
          exact ⟨record :: records, .cons ((accepted record).1 rfl) all,
            by rw [List.map_cons, StakedGame.addHands_cons]⟩
        · rintro ⟨records, all, rfl⟩
          cases all with
          | cons first others =>
            cases (accepted _).2 first
            exact ⟨_, others, by rw [List.map_cons, StakedGame.addHands_cons]⟩

/-- The game that the hands of a file make up: described by the first of them,
with the file name, and holding all of them. -/
def IsGameOf (room : Room) (stem : Text) (records : List HandRecord) (game : StakedGame) : Prop :=
  ∃ first others empty, records = first :: others ∧
    (GameData.gather room first.header first.table stem).emptyGame room.siteName = .ok empty ∧
    game = { empty with game := { empty.game with hands := records.map HandRecord.hand } }

theorem runFrom_readGame (stem : Text) (ready : session.roster.site ≠ []) :
    ∃ result after, (readGame room stem).runFrom session = (result, after) ∧
      (result = .ok none ↔ blocks room.isHandStart session.cursor.rest = []) ∧
      ∀ game, result = .ok (some game) ↔ ∃ records,
        List.Forall₂ (fun block record => readBlock room session.cursor.file block = .ok record)
          (blocks room.isHandStart session.cursor.rest) records ∧
        IsGameOf room stem records game := by
  rw [readGame]
  rw [runFrom_bind_of_ok (runFrom_get session), runFrom_bind_of_ok (runFrom_seek _ session)]
  cases hrest : session.cursor.rest.dropWhile fun line => !room.isHandStart line with
  | nil =>
    rw [Cursor.seek_of_none hrest, blocks_eq_nil hrest]
    refine ⟨.ok none, _, rfl, by simp, ?_⟩
    intro game
    constructor
    · rintro ⟨⟩
    · rintro ⟨records, all, first, others, empty, rfl, -⟩
      cases all
  | cons header ahead =>
    obtain ⟨-, found⟩ := blocks_of_dropWhile_cons hrest
    obtain ⟨there, result, after, sought, run, accepted, behind⟩ :=
      runFrom_readHand_of_seek ready hrest
    rw [sought, if_pos rfl, found]
    cases result with
    | error e =>
      have refused : (readHandAndData room stem).runFrom { session with cursor := there } =
          (.error e, after) := runFrom_bind_of_error run _
      refine ⟨_, _, runFrom_bind_of_error refused _, by simp, ?_⟩
      intro game
      constructor
      · rintro ⟨⟩
      · rintro ⟨records, all, -⟩
        cases all with
        | cons first others => cases (accepted _).2 first
    | ok record =>
      have left := behind record rfl
      have both : (readHandAndData room stem).runFrom { session with cursor := there } =
          (.ok (record.hand, .gather room record.header record.table stem), after) :=
        runFrom_bind_of_ok run _
      rw [runFrom_bind_of_ok both]
      dsimp only
      cases hempty : (GameData.gather room record.header record.table stem).emptyGame
          room.siteName with
      | error e =>
        refine ⟨_, _, runFrom_bind_of_error rfl _, by simp, ?_⟩
        intro game
        constructor
        · rintro ⟨⟩
        · rintro ⟨records, all, first, others, empty, rfl, described, -⟩
          cases all with
          | cons head tail =>
            cases (accepted _).2 head
            rw [hempty] at described
            cases described
      | ok empty =>
        have hands := GameData.hands_emptyGame hempty
        have standing : (Reading.ofModel session.cursor.file (.ok empty)).runFrom after =
            (.ok empty, after) := rfl
        rw [runFrom_bind_of_ok standing, runFrom_bind_of_ok (runFrom_get after), runFrom_map]
        obtain ⟨last, afterLast, rest, spec⟩ := @runFrom_readOthers room after _
          (empty.addHand record.hand) (left.site ▸ ready) left.length_blocks_le
        rw [left.blocks_rest, left.file_eq] at spec
        rw [rest]
        refine ⟨_, _, rfl, ?_, fun game => ?_⟩
        · cases last <;> simp
        · have mapped : some <$> last = .ok (some game) ↔ last = .ok game := by
            cases last <;> simp
          rw [mapped, spec game]
          constructor
          · rintro ⟨records, all, rfl⟩
            refine ⟨record :: records, .cons ((accepted record).1 rfl) all,
              record, records, empty, rfl, hempty, ?_⟩
            rw [← StakedGame.addHands_cons, StakedGame.addHands_of_nil hands, List.map_cons]
          · rintro ⟨records, all, first, others, empty', rfl, described, rfl⟩
            cases all with
            | cons head tail =>
              cases (accepted _).2 head
              rw [hempty] at described
              cases described
              refine ⟨others, tail, ?_⟩
              rw [← StakedGame.addHands_cons, StakedGame.addHands_of_nil hands, List.map_cons]

/-! ## Blocks by themselves -/

/-- The hand that the lines of a block give by themselves, with a roster of their own. -/
def readAlone (room : Room) (file : Text) (alone : Roster) (block : List Text) :
    Except ParseError HandRecord :=
  ((readHand room).runFrom { cursor := { file, ahead := block }, roster := alone }).1

theorem readAlone_eq_ok_iff {file : Text} {alone : Roster} {lines block : List Text}
    (ready : alone.site ≠ []) (cut : block ∈ blocks room.isHandStart lines)
    (record : HandRecord) :
    readAlone room file alone block = .ok record ↔ readBlock room file block = .ok record := by
  obtain ⟨header, ahead, start, rfl⟩ := exists_of_mem_blocks cut
  have standing : (Cursor.rest { file, ahead :=
        header :: ahead.takeWhile fun line => !room.isHandStart line }).dropWhile
        (fun line => !room.isHandStart line) =
      header :: ahead.takeWhile fun line => !room.isHandStart line :=
    List.dropWhile_cons_of_neg (by simp [start])
  obtain ⟨result, after, run, accepted, -⟩ :=
    @runFrom_readHand room { cursor := { file, ahead := _ }, roster := alone } _ _ ready standing
  rw [List.takeWhile_idem] at accepted
  rw [readAlone, run]
  simpa using accepted record

/-- A file is exactly its blocks: it has no game just if it has none of them, and a
game just if every block has a hand by itself and the first one describes a game. -/
theorem readGame_iff_blocks (room : Room) (stem file text : Text) (roster alone : Roster)
    (ready : roster.site ≠ []) (aloneReady : alone.site ≠ []) :
    let found := blocks room.isHandStart (Text.lines text)
    let result := ((readGame room stem).runFrom { cursor := .ofText file text, roster }).1
    (result = .ok none ↔ found = []) ∧
    (∀ game, result = .ok (some game) ↔ ∃ records,
      List.Forall₂ (fun block record => readAlone room file alone block = .ok record)
        found records ∧ IsGameOf room stem records game) ∧
    (∀ game, result = .ok (some game) →
      game.game.hands.length = (Text.lines text).countP room.isHandStart) := by
  intro found result
  obtain ⟨read, after, run, nothing, something⟩ :=
    @runFrom_readGame room { cursor := .ofText file text, roster } stem ready
  have same : result = read := congrArg Prod.fst run
  rw [← same] at nothing something
  have each : ∀ records,
      List.Forall₂ (fun block record => readBlock room file block = .ok record) found records ↔
      List.Forall₂ (fun block record => readAlone room file alone block = .ok record)
        found records := by
    intro records
    have inside : ∀ block ∈ found, block ∈ found := fun block cut => cut
    constructor
    · intro all
      exact ((List.forall₂_and_left found records).2 ⟨inside, all⟩).imp
        fun block record both => (readAlone_eq_ok_iff aloneReady both.1 record).2 both.2
    · intro all
      exact ((List.forall₂_and_left found records).2 ⟨inside, all⟩).imp
        fun block record both => (readAlone_eq_ok_iff aloneReady both.1 record).1 both.2
  refine ⟨nothing, fun game => ?_, fun game accepted => ?_⟩
  · rw [something game]
    constructor
    · rintro ⟨records, all, isGame⟩
      exact ⟨records, (each records).1 all, isGame⟩
    · rintro ⟨records, all, isGame⟩
      exact ⟨records, (each records).2 all, isGame⟩
  · obtain ⟨records, all, first, others, empty, -, -, rfl⟩ := (something game).1 accepted
    rw [← length_blocks, List.length_map]
    exact all.length_eq.symm

/-- A text in front of the first header and two hands. -/
theorem readGame_iff_blocks_two_hands :
    let text : Text := "off\nWinamax Poker - HandId: #1 - 2014/11/12 23:49:45\n" ++
      "Table: 'Nice' 5-max\nSeat 1: ann (5)\nWinamax Poker - HandId: #2 - 2014/11/12 23:50:45\n" ++
      "Table: 'Nice' 5-max\nSeat 2: bob (5)\n"
    let roster : Roster := { site := Room.winamax.siteName }
    ∃ game records, ((readGame .winamax []).runFrom { cursor := .ofText [] text, roster }).1 =
        .ok (some game) ∧
      List.Forall₂ (fun block record => readAlone .winamax [] roster block = .ok record)
        (blocks Room.winamax.isHandStart (Text.lines text)) records ∧
      game.game.hands.length = 2 := by
  intro text roster
  have ready : roster.site ≠ [] := Room.winamax.siteName_ne_nil
  obtain ⟨-, something, count⟩ := readGame_iff_blocks .winamax [] [] text roster roster ready ready
  have isSome : (((readGame .winamax []).runFrom { cursor := .ofText [] text, roster }).1.map
      Option.isSome) = .ok true := by decide +kernel
  have two : (Text.lines text).countP Room.winamax.isHandStart = 2 := by decide +kernel
  cases result : ((readGame .winamax []).runFrom { cursor := .ofText [] text, roster }).1 with
  | error e =>
    rw [result] at isSome
    cases isSome
  | ok game? =>
    cases game? with
    | none =>
      rw [result] at isSome
      cases isSome
    | some game =>
      obtain ⟨records, all, -⟩ := (something game).1 result
      exact ⟨game, records, rfl, all, (count game result).trans two⟩

end History

end HandHistory
