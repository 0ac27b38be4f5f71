import HandHistory.Proofs.SideBySide
import HandHistory.Proofs.Words

/-!
# Layout

How a history is laid out does not matter. Blank lines in a hand, blanks around the lines
of its body, whatever stands behind the beginning of its summary, the way in which lines
end, and a byte order mark can all be changed, and the file gives the same game, the same
players and the same events, or fails with the same error.

Two notions carry this. The `essence` of a body is what is left of it without its layout,
and a body is read as its essence is (`Draft.consumeAll_essence`). The outlines of a file
are its blocks with the essences of their bodies; two runs over files with the same
outlines go side by side. What remains is that no edit changes an outline.
-/

namespace HandHistory

namespace Text

variable {text left right : Text}

theorem trimLine_trimLine (text : Text) : trimLine (trimLine text) = trimLine text := by
  by_cases named : trimLine text = []
  · rw [named]
    rfl
  · exact trimLine_eq_self (starts_trimLine named) (ends_trimLine named)

theorem trimLine_append_blank (hright : ∀ c ∈ right, isLineBlank c = true) (text : Text) :
    trimLine (text ++ right) = trimLine text := trimBy_append hright text

/-- Blanks at the ends of a line come to nothing. -/
theorem trimLine_pad (hleft : ∀ c ∈ left, isLineBlank c = true)
    (hright : ∀ c ∈ right, isLineBlank c = true) (text : Text) :
    trimLine (left ++ (text ++ right)) = trimLine text := by
  rw [← trimLine_append_blank hright text, trimLine, trimBy,
    List.dropWhile_append_of_pos hleft]
  rfl

theorem trimLine_eq_nil (blank : ∀ c ∈ text, isLineBlank c = true) : trimLine text = [] :=
  trimBy_eq_nil blank

end Text

/-! ## The essence of a body -/

/-- Whether a line begins the summary of its hand. -/
def opensSummary (line : Text) : Bool := Text.hasStart "*** SUMMARY ***" line

/-- What is left of a body without its layout: its lines, freed from blanks at their ends,
without those that are empty and without those behind the beginning of the summary. -/
def essence : List Text → List Text
  | [] => []
  | line :: lines =>
    let line := Text.trimLine line
    if line.isEmpty then essence lines
    else if opensSummary line then [line]
    else line :: essence lines

variable {line : Text}

theorem opensSummary_trimLine (opens : opensSummary line = true) :
    opensSummary (Text.trimLine line) = true := by
  obtain ⟨rest, hrest⟩ := Option.isSome_iff_exists.1 opens
  rw [Text.stripStart?_eq_some_iff.1 hrest]
  have starts : Text.Starts "*** SUMMARY ***" := ⟨'*', "** SUMMARY ***".toList, rfl, rfl⟩
  have ends : Text.Ends "*** SUMMARY ***" := ⟨"*** SUMMARY **".toList, '*', rfl, rfl⟩
  obtain ⟨rest', same⟩ := Text.exists_trimLine_append starts ends rest
  rw [same, opensSummary, Text.hasStart, Text.stripStart?_append]
  rfl

theorem essence_cons_of_blank (blank : Text.trimLine line = []) (lines : List Text) :
    essence (line :: lines) = essence lines := by
  simp [essence, blank]

theorem essence_cons_of_summary (opens : opensSummary line = true) (lines : List Text) :
    essence (line :: lines) = [Text.trimLine line] := by
  have trimmed := opensSummary_trimLine opens
  have named : (Text.trimLine line).isEmpty = false := by
    cases blank : Text.trimLine line with
    | nil =>
      rw [blank] at trimmed
      cases trimmed
    | cons c rest => rfl
  simp [essence, trimmed, named]

theorem essence_cons_congr {other : Text} {lines others : List Text}
    (same : Text.trimLine line = Text.trimLine other) (rest : essence lines = essence others) :
    essence (line :: lines) = essence (other :: others) := by
  simp only [essence, same, rest]

theorem essence_append_congr (front : List Text) {lines others : List Text}
    (same : essence lines = essence others) :
    essence (front ++ lines) = essence (front ++ others) := by
  induction front with
  | nil => exact same
  | cons line front ih => exact essence_cons_congr rfl ih

namespace Draft

variable {context : HandContext}

theorem consume_trimLine (raw : Text) (draft : Draft) :
    draft.consume context (Text.trimLine raw) = draft.consume context raw := by
  simp only [consume, BodyLine.ofText, Text.trimLine_trimLine]

theorem consume_of_blank {raw : Text} (blank : Text.trimLine raw = []) (draft : Draft) :
    draft.consume context raw = pure draft := by
  have nothing : BodyLine.ofText draft.seatsOpen raw = .blank := by
    rw [BodyLine.ofText, blank]
    rfl
  rw [consume, nothing]
  split
  · rfl
  · show pure { draft with seatsOpen := draft.seatsOpen && true } = pure draft
    rw [Bool.and_true]

theorem consume_of_summary {raw : Text} (named : (Text.trimLine raw).isEmpty = false)
    (opens : opensSummary (Text.trimLine raw) = true) (draft : Draft) :
    ∃ after : Draft, after.inSummary = true ∧ draft.consume context raw = pure after := by
  have summary : BodyLine.ofText draft.seatsOpen raw = .summary := by
    rw [BodyLine.ofText, if_neg (by simp [named])]
    exact if_pos opens
  rw [consume, summary]
  split
  · next passed => exact ⟨draft, passed, rfl⟩
  · exact ⟨_, rfl, rfl⟩

theorem consumeAll_of_inSummary {draft : Draft} (passed : draft.inSummary = true)
    (lines : List Text) : draft.consumeAll context lines = pure draft := by
  induction lines with
  | nil => rfl
  | cons line lines ih =>
    have kept : draft.consume context line = pure draft := by rw [consume, if_pos passed]
    rw [consumeAll_cons, kept, pure_bind, ih]

/-- A body is read as its essence is. -/
theorem consumeAll_essence (lines : List Text) (draft : Draft) :
    draft.consumeAll context (essence lines) = draft.consumeAll context lines := by
  induction lines generalizing draft with
  | nil => rfl
  | cons line lines ih =>
    rw [essence, consumeAll_cons]
    split
    · next blank =>
      rw [consume_of_blank (List.isEmpty_iff.1 blank), pure_bind, ih]
    · next named =>
      rw [Bool.not_eq_true] at named
      split
      · next opens =>
        obtain ⟨after, passed, same⟩ := @consume_of_summary context line named opens draft
        rw [consumeAll_cons, consume_trimLine, same, pure_bind, pure_bind,
          consumeAll_of_inSummary passed, consumeAll_of_inSummary passed]
      · rw [consumeAll_cons, consume_trimLine]
        exact congrArg _ (funext ih)

end Draft

/-! ## The outlines of a file -/

/-- A block with the essence of its body. Where the summary begins in the second line, that
is refused as a table line and nothing is left of the body. -/
def outline : List Text → List Text
  | header :: table :: body => header :: table :: if opensSummary table then [] else essence body
  | short => short

theorem headD_outline (header : Text) (lines : List Text) :
    (outline (header :: lines)).headD [] = header := by
  cases lines <;> rfl

namespace Room

variable {room : Room} {header : Text} {lines : List Text}

/-- The outlines of the blocks of a file. -/
def outlines (room : Room) (lines : List Text) : List (List Text) :=
  (blocks room.isHandStart lines).map outline

theorem outlines_cons (start : room.isHandStart header = true) (lines : List Text) :
    room.outlines (header :: lines) =
      outline (header :: lines.takeWhile fun line => !room.isHandStart line) ::
        room.outlines lines := by
  rw [outlines, blocks, if_pos start]
  rfl

theorem outlines_append (inside : ∀ line ∈ lines, room.isHandStart line = false)
    (behind : List Text) : room.outlines (lines ++ behind) = room.outlines behind := by
  induction lines with
  | nil => rfl
  | cons line lines ih =>
    rw [List.forall_mem_cons] at inside
    rw [← ih inside.2, outlines, List.cons_append, blocks, if_neg (by simp [inside.1])]
    rfl

/-- What stands in front of a header has no part in the blocks from there on. -/
theorem outlines_append_cons (start : room.isHandStart header = true) (front lines : List Text) :
    room.outlines (front ++ header :: lines) =
      room.outlines front ++ room.outlines (header :: lines) := by
  induction front with
  | nil => rfl
  | cons line front ih =>
    rw [outlines, List.cons_append, blocks]
    split
    · next first =>
      have stop : (front ++ header :: lines).takeWhile (fun line => !room.isHandStart line) =
          front.takeWhile fun line => !room.isHandStart line := by
        rw [List.takeWhile_append]
        split
        · next whole =>
          rw [List.takeWhile_cons_of_neg (by simp [start]), List.append_nil]
          exact (List.takeWhile_prefix _).eq_of_length whole |>.symm
        · rfl
      rw [outlines_cons first, stop, List.cons_append, ← ih]
      rfl
    · next other =>
      rw [Bool.not_eq_true] at other
      have skipped := @outlines_append room [line] (by simpa using other) front
      rw [List.singleton_append] at skipped
      rw [skipped, ← ih]
      rfl

theorem length_outlines_le (room : Room) (lines : List Text) :
    (room.outlines lines).length ≤ lines.length := by
  rw [outlines, List.length_map, length_blocks]
  exact List.countP_le_length

end Room

/-! ## Cursors between, on and behind the headers -/

namespace Cursor

variable {room : Room} {file : Text} {first : List Text} {left : List (List Text)}
  {cursor : Cursor}

/-- The cursor stands in front of blocks of these outlines, and on none of their headers. -/
structure Faces (room : Room) (file : Text) (left : List (List Text)) (cursor : Cursor) :
    Prop where
  file_eq : cursor.file = file
  rest_eq : room.outlines cursor.rest = left
  ahead_eq : room.outlines cursor.ahead = left

/-- The cursor stands on the header of a block of this outline, in front of others. -/
def OnHeader (room : Room) (file : Text) (first : List Text) (left : List (List Text))
    (cursor : Cursor) : Prop :=
  ∃ header ahead, room.isHandStart header = true ∧ cursor.OnLine file header ahead ∧
    outline (header :: ahead.takeWhile fun line => !room.isHandStart line) = first ∧
    room.outlines ahead = left

/-- The cursor stands in front of a body of this essence, and of the blocks behind it. -/
def OnBody (room : Room) (file : Text) (body : List Text) (left : List (List Text))
    (cursor : Cursor) : Prop :=
  ∃ line ahead, room.isHandStart line = false ∧ cursor.OnLine file line ahead ∧
    essence (ahead.takeWhile fun line => !room.isHandStart line) = body ∧
    room.outlines ahead = left

theorem faces_ofText (room : Room) (file text : Text) :
    Faces room file (room.outlines (Text.lines text)) (.ofText file text) :=
  ⟨rfl, rfl, rfl⟩

theorem Faces.exists_seek_nil (faces : Faces room file [] cursor) :
    ∃ next, cursor.seek room.isHandStart = (false, next) ∧ True := by
  refine ⟨(cursor.seek room.isHandStart).2, Prod.ext ?_ rfl, trivial⟩
  refine seek_of_none ?_
  cases found : cursor.rest.dropWhile fun line => !room.isHandStart line with
  | nil => rfl
  | cons header ahead =>
    have none := faces.rest_eq
    rw [Room.outlines, (blocks_of_dropWhile_cons found).2] at none
    cases none

theorem Faces.exists_seek_cons (faces : Faces room file (first :: left) cursor) :
    ∃ next, cursor.seek room.isHandStart = (true, next) ∧ OnHeader room file first left next := by
  have some := faces.rest_eq
  cases found : cursor.rest.dropWhile fun line => !room.isHandStart line with
  | nil =>
    rw [Room.outlines, ← blocks_dropWhile, found] at some
    cases some
  | cons header ahead =>
    obtain ⟨start, cut⟩ := blocks_of_dropWhile_cons found
    rw [Room.outlines, cut, List.map_cons, List.cons_eq_cons] at some
    obtain ⟨next, sought, on⟩ := seek_of_some found
    exact ⟨next, sought, header, ahead, start, faces.file_eq ▸ on, some.1, some.2⟩

theorem OnHeader.file_eq (on : OnHeader room file first left cursor) : cursor.file = file := by
  obtain ⟨header, ahead, -, on, -⟩ := on
  exact on.file_eq

theorem OnHeader.current_eq (on : OnHeader room file first left cursor) :
    cursor.current = first.headD [] := by
  obtain ⟨header, ahead, -, on, rfl, -⟩ := on
  rw [on.current_eq, headD_outline]

theorem OnHeader.exists_seek (on : OnHeader room file first left cursor) :
    ∃ next, cursor.seek room.isHandStart = (true, next) ∧ OnHeader room file first left next := by
  obtain ⟨header, ahead, start, onLine, same⟩ := on
  exact ⟨cursor, onLine.seek_eq start, header, ahead, start, onLine, same⟩

/-- The line behind the header of a block: the next one of the block, or the header of the
block that follows. -/
def second? (first : List Text) (left : List (List Text)) : Option Text :=
  (first.tail ++ left.map fun block => block.headD []).head?

/-- The cursor stands on the line behind a header. If that can be a table line, the body
and the blocks behind it are those of the outlines. -/
def OnSecond (room : Room) (file line : Text) (first : List Text) (left : List (List Text))
    (cursor : Cursor) : Prop :=
  ∃ ahead, cursor.OnLine file line ahead ∧
    (room.isHandStart line = false → opensSummary line = false →
      essence (ahead.takeWhile fun line => !room.isHandStart line) = first.drop 2 ∧
      room.outlines ahead = left)

theorem OnHeader.exists_nextLine_nil (on : OnHeader room file first left cursor)
    (last : second? first left = none) :
    ∃ next, cursor.nextLine = (false, next) ∧ True := by
  obtain ⟨header, ahead, -, on, rfl, rfl⟩ := on
  cases ahead with
  | nil => exact ⟨cursor.next, by simp [nextLine, on.ahead_eq], trivial⟩
  | cons line lines =>
    by_cases start : room.isHandStart line = true
    · rw [List.takeWhile_cons_of_neg (by simp [start]), Room.outlines_cons start] at last
      cases last
    · rw [List.takeWhile_cons_of_pos (by simp [start])] at last
      cases last

theorem OnHeader.exists_nextLine {line : Text} (on : OnHeader room file first left cursor)
    (second : second? first left = some line) :
    ∃ next, cursor.nextLine = (true, next) ∧ OnSecond room file line first left next := by
  obtain ⟨header, ahead, -, on, rfl, rfl⟩ := on
  cases ahead with
  | nil => cases second
  | cons line' lines =>
    obtain ⟨next, moved, onNext⟩ := nextLine_of_cons on.ahead_eq
    rw [on.file_eq] at onNext
    by_cases start : room.isHandStart line' = true
    · have same : line' = line := by
        rw [List.takeWhile_cons_of_neg (by simp [start]), Room.outlines_cons start] at second
        rw [← headD_outline line' (lines.takeWhile fun line => !room.isHandStart line)]
        exact Option.some.inj second
      subst same
      exact ⟨next, moved, lines, onNext, fun inside => by simp [start] at inside⟩
    · rw [Bool.not_eq_true] at start
      rw [List.takeWhile_cons_of_pos (by simp [start])] at second ⊢
      obtain rfl : line' = line := Option.some.inj second
      have skipped := @Room.outlines_append room [line'] (by simpa using start) lines
      refine ⟨next, moved, lines, onNext, fun _ isTable => ⟨?_, skipped.symm⟩⟩
      rw [outline, isTable]
      rfl

end Cursor

/-! ## Runs over files of the same outlines -/

namespace History

open Reading Cursor

variable {room : Room} {file : Text} {first : List Text} {left : List (List Text)}

/-- The beginning of a summary is never read as a table line. -/
theorem readTableLine_of_opensSummary {line : Text} (opens : opensSummary line = true) :
    ∃ anchor, room.readTableLine file line = .error (.missingAnchor file anchor line) := by
  obtain ⟨rest, hrest⟩ := Option.isSome_iff_exists.1 opens
  cases room with
  | winamax | pokerStars =>
    refine ⟨_, if_neg ?_⟩
    simp [Text.stripStart?_eq_some_iff.1 hrest, Text.hasStart, Text.stripStart?]

theorem inside_of_readTableLine {line : Text} {table : TableLine}
    (read : room.readTableLine file line = .ok table) :
    room.isHandStart line = false ∧ opensSummary line = false := by
  constructor
  · by_contra start
    rw [Bool.not_eq_false] at start
    obtain ⟨anchor, refused⟩ := @readTableLine_of_isHandStart room file line start
    rw [refused] at read
    cases read
  · by_contra opens
    rw [Bool.not_eq_false] at opens
    obtain ⟨anchor, refused⟩ := @readTableLine_of_opensSummary room file line opens
    rw [refused] at read
    cases read

theorem together_readHeader :
    Together (OnHeader room file first left) (readHeader room) (readHeader room)
      fun _ => OnHeader room file first left := by
  refine together_get fun session one other hone hother => ?_
  dsimp only
  rw [hone.file_eq, hother.file_eq]
  refine together_seek (fun cursor on => on.exists_seek) ?_
  refine together_get fun session one other hone hother => ?_
  dsimp only
  rw [hone.current_eq, hother.current_eq]
  cases room.readHeader file (first.headD []) with
  | ok logged => exact (inherited_blind.ofLogged logged).together _
  | error e => exact together_throw e

theorem together_readTableLine :
    Together (OnHeader room file first left) (readTableLine room) (readTableLine room)
      fun _ => OnBody room file (first.drop 2) left := by
  refine together_get fun session one other hone hother => ?_
  dsimp only
  rw [hone.file_eq, hother.file_eq]
  cases second : second? first left with
  | none =>
    exact together_nextLine (fun cursor on => on.exists_nextLine_nil second) (together_throw _)
  | some line =>
    refine together_nextLine (fun cursor on => on.exists_nextLine second) ?_
    refine together_get fun session one other hone hother => ?_
    obtain ⟨ahead, onOne, body⟩ := hone
    obtain ⟨ahead', onOther, body'⟩ := hother
    dsimp only
    rw [onOne.current_eq, onOther.current_eq]
    cases read : room.readTableLine file line with
    | ok table =>
      obtain ⟨inside, isTable⟩ := inside_of_readTableLine read
      refine ((blind_pure table).together _).mono ?_
      rintro _ cursor ⟨ahead, on, body⟩
      exact ⟨line, ahead, inside, on, body inside isTable⟩
    | error e => exact together_throw e

/-- A body is read as its essence is, and the cursor is left in front of the blocks behind it. -/
theorem runFrom_readBody_of_onBody {context : HandContext} {draft : Draft} {body : List Text}
    {cursor : Cursor} (on : OnBody room file body left cursor) (session : Session) :
    ∃ next, (readBody room context cursor.ahead draft).runFrom { session with cursor } =
        (((draft.consumeAll context body).runFrom session).1,
          { ((draft.consumeAll context body).runFrom session).2 with cursor := next }) ∧
      ∀ last, ((draft.consumeAll context body).runFrom session).1 = .ok last →
        Faces room file left next := by
  obtain ⟨line, ahead, inside, onLine, rfl, rfl⟩ := on
  have standing : cursor.OnLine cursor.file line ahead := ⟨rfl, onLine.place_eq, onLine.ahead_eq⟩
  obtain ⟨next, run, stops⟩ :=
    @runFrom_readBody_eq room context draft line ahead { session with cursor } standing inside
  rw [Draft.blind_consumeAll, ← Draft.consumeAll_essence] at run stops
  rw [onLine.ahead_eq]
  refine ⟨next, run, fun last ok => ?_⟩
  obtain ⟨line', onLast, inside'⟩ := stops last ok
  have same : room.outlines (ahead.dropWhile fun line => !room.isHandStart line) =
      room.outlines ahead := by
    rw [Room.outlines, Room.outlines, blocks_dropWhile]
  have skipped := @Room.outlines_append room [line'] (by simpa using inside')
  refine ⟨onLast.file_eq.trans onLine.file_eq, ?_, ?_⟩
  · rw [onLast.rest_eq, ← List.singleton_append, skipped, same]
  · rw [onLast.ahead_eq, same]

theorem together_readRest (header : Header) (table : TableLine) {body : List Text} :
    Together (OnBody room file body left) (readRest room header table)
      (readRest room header table) fun _ => Faces room file left := by
  intro session one other hone hother
  have files : one.file = file ∧ other.file = file := by
    obtain ⟨_, _, -, onOne, -⟩ := hone
    obtain ⟨_, _, -, onOther, -⟩ := hother
    exact ⟨onOne.file_eq, onOther.file_eq⟩
  rw [readRest, runFrom_bind_of_ok (runFrom_get _), runFrom_bind_of_ok (runFrom_get _)]
  dsimp only
  rw [files.1, files.2]
  generalize contextOf room file header = context
  obtain ⟨here, runOne, facesHere⟩ := @runFrom_readBody_of_onBody room file left context {} body
    one hone session
  obtain ⟨there, runOther, facesThere⟩ := @runFrom_readBody_of_onBody room file left context {}
    body other hother session
  rcases said : (Draft.consumeAll context body {}).runFrom session with ⟨e | draft, between⟩
  · rw [said] at runOne runOther
    rw [runFrom_bind_of_error runOne, runFrom_bind_of_error runOther]
    refine ⟨.error e, between, here, there, rfl, rfl, ?_⟩
    rintro record ⟨⟩
  · rw [said] at runOne runOther facesHere facesThere
    -- what is left to do does not look at the cursor
    have finish : Blind (draft.addSilentWinners context >>= fun draft =>
        ofModel file (assemble room header table draft).create >>= fun hand =>
          pure { header, table, hand : HandRecord }) :=
      (draft.blind_addSilentWinners context).bind fun draft =>
        (blind_ofModel file _).bind fun hand => blind_pure _
    rw [runFrom_bind_of_ok runOne, runFrom_bind_of_ok runOther]
    exact finish.together (Faces room file left) between here there (facesHere draft rfl)
      (facesThere draft rfl)

/-- Two runs read the next hand side by side. -/
theorem together_readHand :
    Together (OnHeader room file first left) (readHand room) (readHand room)
      fun _ => Faces room file left :=
  together_readHeader.bind fun header => together_readTableLine.bind fun table =>
    together_readRest header table

theorem together_readOthers {bound bound' : Nat} (enough : left.length < bound)
    (enough' : left.length < bound') (game : StakedGame) :
    Together (Faces room file left) (readOthers room bound game) (readOthers room bound' game)
      fun _ _ => True := by
  induction left generalizing bound bound' game with
  | nil =>
    cases bound with
    | zero => cases enough
    | succ bound =>
      cases bound' with
      | zero => cases enough'
      | succ bound' =>
        rw [readOthers, readOthers]
        exact together_seek (fun cursor faces => faces.exists_seek_nil)
          ((blind_pure game).together _)
  | cons first left ih =>
    rw [List.length_cons] at enough enough'
    cases bound with
    | zero => cases enough
    | succ bound =>
      cases bound' with
      | zero => cases enough'
      | succ bound' =>
        rw [readOthers, readOthers]
        refine together_seek (fun cursor faces => faces.exists_seek_cons) ?_
        exact together_readHand.bind fun record =>
          ih (by omega) (by omega) (game.addHand record.hand)

/-- Two runs read a whole file side by side. -/
theorem together_readGame (stem : Text) :
    Together (Faces room file left) (readGame room stem) (readGame room stem)
      fun _ _ => True := by
  refine together_get fun session one other hone hother => ?_
  dsimp only
  rw [hone.file_eq, hother.file_eq]
  cases left with
  | nil =>
    refine together_seek (fun cursor faces => faces.exists_seek_nil) ?_
    exact ((blind_record _).bind fun _ => blind_pure none).together _
  | cons first left =>
    refine together_seek (fun cursor faces => faces.exists_seek_cons) ?_
    have described : Together (OnHeader room file first left) (readHandAndData room stem)
        (readHandAndData room stem) fun _ => Faces room file left :=
      together_readHand.bind fun record => (blind_pure _).together _
    refine described.bind fun ⟨hand, data⟩ => ?_
    refine ((blind_ofModel file _).together _).bind fun game => ?_
    refine together_get fun session one other hone hother => ?_
    have few : ∀ cursor, Faces room file left cursor → left.length < cursor.ahead.length + 1 := by
      intro cursor faces
      rw [← faces.ahead_eq, Nat.lt_succ_iff]
      exact room.length_outlines_le cursor.ahead
    simp only [← bind_pure_comp]
    refine (together_readOthers (few one hone) (few other hother) _).bind fun final => ?_
    exact (blind_pure _).together _

/-- Texts of the same outlines give the same game, players and events, or the same error. -/
theorem readGame_eq_of_outlines {text edited : Text} (stem : Text) (roster : Roster)
    (same : room.outlines (Text.lines text) = room.outlines (Text.lines edited)) :
    ∃ (result : Except ParseError (Option StakedGame)) (last : Session) (here there : Cursor),
      (readGame room stem).runFrom { cursor := .ofText file text, roster } =
        (result, { last with cursor := here }) ∧
      (readGame room stem).runFrom { cursor := .ofText file edited, roster } =
        (result, { last with cursor := there }) := by
  obtain ⟨result, last, here, there, one, other, -⟩ := together_readGame stem
    { cursor := .ofText file text, roster } _ _ (faces_ofText room file text)
    (same ▸ faces_ofText room file edited)
  exact ⟨result, last, here, there, one, other⟩

end History

end HandHistory
