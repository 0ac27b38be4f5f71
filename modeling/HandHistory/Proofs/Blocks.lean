import HandHistory.History
import HandHistory.Proofs.Reading

/-!
# Blocks

The first line of a hand and all lines up to the next first line are a block.
`readBlock` says what a block holds, without a cursor or a roster; it is the
specification of reading a hand, and `runFrom_readHand` is the proof: wherever
the cursor stands, the next hand is accepted just as its block is, and the
cursor is left inside that block.

The roster does not come in because every line has an answer of its own:
`settled_consume` says that it is the same from every session of a room.
-/

namespace HandHistory

/-! ## Cursors -/

namespace Cursor

/-- The lines that a search still goes through: the current one and those ahead. -/
def rest (cursor : Cursor) : List Text :=
  match cursor.place with
  | .line current => current :: cursor.ahead
  | .start | .finished => cursor.ahead

/-- The cursor stands on a line of a file, in front of the lines ahead. -/
structure OnLine (file line : Text) (ahead : List Text) (cursor : Cursor) : Prop where
  file_eq : cursor.file = file
  place_eq : cursor.place = .line line
  ahead_eq : cursor.ahead = ahead

theorem OnLine.rest_eq {file line : Text} {ahead : List Text} {cursor : Cursor}
    (on : OnLine file line ahead cursor) : cursor.rest = line :: ahead := by
  rw [rest, on.place_eq, on.ahead_eq]

theorem OnLine.current_eq {file line : Text} {ahead : List Text} {cursor : Cursor}
    (on : OnLine file line ahead cursor) : cursor.current = line := by
  rw [current, on.place_eq]

theorem nextLine_of_cons {cursor : Cursor} {line : Text} {lines : List Text}
    (ahead : cursor.ahead = line :: lines) :
    ∃ next, cursor.nextLine = (true, next) ∧ OnLine cursor.file line lines next := by
  refine ⟨{ cursor with index := cursor.indexAfter, place := .line line, ahead := lines }, ?_,
    ⟨rfl, rfl, rfl⟩⟩
  simp [nextLine, next, ahead]

variable {wanted : Text → Bool} {file : Text} {lines ahead : List Text} {line : Text}

theorem seekIn_of_none (index : Nat)
    (absent : lines.dropWhile (fun line => !wanted line) = []) :
    (seekIn wanted file index lines).1 = false := by
  induction lines generalizing index with
  | nil => rfl
  | cons first lines ih =>
    by_cases h : wanted first = true
    · simp [h] at absent
    · rw [Bool.not_eq_true] at h
      simp only [List.dropWhile_cons, h, Bool.not_false, if_true] at absent
      simpa [seekIn, h] using ih (index + 1) absent

theorem seekIn_of_some (index : Nat)
    (found : lines.dropWhile (fun line => !wanted line) = line :: ahead) :
    ∃ there, seekIn wanted file index lines = (true, there) ∧ OnLine file line ahead there := by
  induction lines generalizing index with
  | nil => cases found
  | cons first lines ih =>
    by_cases h : wanted first = true
    · simp only [List.dropWhile_cons, h, Bool.not_true, Bool.false_eq_true, if_false] at found
      cases found
      exact ⟨{ file, index, place := .line line, ahead }, by simp [seekIn, h], rfl, rfl, rfl⟩
    · rw [Bool.not_eq_true] at h
      simp only [List.dropWhile_cons, h, Bool.not_false, if_true] at found
      simpa [seekIn, h] using ih (index + 1) found

theorem seek_of_none {cursor : Cursor}
    (absent : cursor.rest.dropWhile (fun line => !wanted line) = []) :
    (cursor.seek wanted).1 = false := by
  obtain ⟨file, index, place, ahead⟩ := cursor
  cases place with
  | start | finished => exact seekIn_of_none _ absent
  | line current =>
    by_cases h : wanted current = true
    · simp [rest, h] at absent
    · rw [Bool.not_eq_true] at h
      simp only [rest, List.dropWhile_cons, h, Bool.not_false, if_true] at absent
      simpa [seek, h] using seekIn_of_none _ absent

/-- A search ends on the first wanted line of the rest. -/
theorem seek_of_some {cursor : Cursor}
    (found : cursor.rest.dropWhile (fun line => !wanted line) = line :: ahead) :
    ∃ there, cursor.seek wanted = (true, there) ∧ OnLine cursor.file line ahead there := by
  obtain ⟨file, index, place, others⟩ := cursor
  cases place with
  | start | finished => exact seekIn_of_some _ found
  | line current =>
    by_cases h : wanted current = true
    · simp only [rest, List.dropWhile_cons, h, Bool.not_true, Bool.false_eq_true, if_false] at found
      cases found
      exact ⟨{ file, index, place := .line line, ahead }, by simp [seek, h], rfl, rfl, rfl⟩
    · rw [Bool.not_eq_true] at h
      simp only [rest, List.dropWhile_cons, h, Bool.not_false, if_true] at found
      simpa [seek, h] using seekIn_of_some _ found

theorem seekIn_eq_false (index : Nat) (nothing : (seekIn wanted file index lines).1 = false) :
    ∃ last, seekIn wanted file index lines =
      (false, { file, index := last, place := .finished, ahead := [] }) := by
  induction lines generalizing index with
  | nil => exact ⟨index, rfl⟩
  | cons first lines ih =>
    rw [seekIn] at nothing ⊢
    split
    · next found =>
      rw [if_pos found] at nothing
      cases nothing
    · next passed =>
      rw [if_neg passed] at nothing
      exact ih (index + 1) nothing

/-- A search that finds nothing ends behind the last line. -/
theorem seek_eq_false {cursor : Cursor} (nothing : (cursor.seek wanted).1 = false) :
    ∃ last, cursor.seek wanted =
      (false, { file := cursor.file, index := last, place := .finished, ahead := [] }) := by
  obtain ⟨file, index, place, others⟩ := cursor
  cases place with
  | start | finished => exact seekIn_eq_false _ nothing
  | line current =>
    rw [seek] at nothing ⊢
    dsimp only at nothing ⊢
    split
    · next found =>
      rw [if_pos found] at nothing
      cases nothing
    · next passed =>
      rw [if_neg passed] at nothing
      exact seekIn_eq_false _ nothing

/-- A cursor stays on a wanted line. -/
theorem OnLine.seek_eq {cursor : Cursor} (on : OnLine file line ahead cursor)
    (found : wanted line = true) : cursor.seek wanted = (true, cursor) := by
  rw [seek, on.place_eq]
  exact if_pos found

end Cursor

/-! ## Lines -/

namespace Draft

open Reading

variable {P : ∀ {α : Type}, Reading α → Prop} {context : HandContext} {draft : Draft}

theorem inherited_cards (inherited : Inherited @P) (group : Text) : P (cards context group) := by
  rw [cards]
  split
  · exact inherited.pure _
  · exact inherited.invalidCard _ _

theorem inherited_cardsOr (inherited : Inherited @P) (row : CardRow) (group? : Option Text) :
    P (cardsOr context row group?) := by
  cases group? with
  | none => exact inherited.pure row
  | some group => exact inherited_cards inherited group

theorem inherited_addAction (inherited : Inherited @P) (kind : ActionKind) (player : Text)
    (amount : Float) : P (draft.addAction context kind player amount) := by
  rw [addAction]
  refine inherited.bind (inherited.enrol context.file player) fun _ => ?_
  exact inherited.bind (inherited.ofModel context.file _) fun action => inherited.pure _

theorem inherited_takeSeat (inherited : Inherited @P) (number player line : Text) :
    P (draft.takeSeat context number player line) := by
  rw [takeSeat]
  split
  · split
    · exact inherited.bind (inherited.record _) fun _ => inherited.pure draft
    · exact inherited.bind (inherited.enrol context.file player) fun _ => inherited.pure _
  · exact inherited.bind (inherited.record _) fun _ => inherited.pure draft

theorem inherited_takeBoard (inherited : Inherited @P) (part : BoardPart) (group? : Option Text) :
    P (draft.takeBoard context part group?) := by
  cases group? with
  | none => exact inherited.pure _
  | some group =>
    exact inherited.bind (inherited_cards inherited group) fun cards => inherited.pure _

theorem inherited_takeDealt (inherited : Inherited @P) (player : Text) (group? : Option Text) :
    P (draft.takeDealt context player group?) := by
  rw [takeDealt]
  refine inherited.bind (inherited_cardsOr inherited draft.heroCards group?) fun heroCards => ?_
  split
  · next named =>
    have hplayer : player ≠ [] := by simpa using named
    exact inherited.bind (inherited.markHero context.file hplayer) fun _ => inherited.pure _
  · exact inherited.pure _

theorem inherited_takeWinner (inherited : Inherited @P) (player line : Text) :
    P (draft.takeWinner context player line) := by
  rw [takeWinner]
  split
  · exact inherited.bind (inherited.enrol context.file player) fun _ => inherited.pure _
  · exact inherited.bind (inherited.record _) fun _ => inherited.pure draft

theorem inherited_takeAction (inherited : Inherited @P) (kind : ActionKind)
    (player tail line : Text) : P (draft.takeAction context kind player tail line) := by
  have acts : ∀ amount : Float, P (draft.addAction context kind player amount) := fun amount =>
    inherited_addAction inherited kind player amount
  rw [takeAction]
  split
  · dsimp only
    split
    · exact inherited.bind (inherited.ofLogged _) acts
    · exact inherited.bind (inherited.pure 0) acts
  · exact inherited.bind (inherited.record _) fun _ => inherited.pure draft

theorem inherited_takeLine (inherited : Inherited @P) (line : BodyLine) :
    P (takeLine context draft line) := by
  cases line with
  | blank | summary | brokenSeat | preflop | marker | blind | noise => exact inherited.pure _
  | seat number player line => exact inherited_takeSeat inherited number player line
  | board part group? => exact inherited_takeBoard inherited part group?
  | ante line => exact inherited.bind (inherited.ofLogged _) fun ante => inherited.pure _
  | dealt player group? => exact inherited_takeDealt inherited player group?
  | winner player line => exact inherited_takeWinner inherited player line
  | action kind player tail line => exact inherited_takeAction inherited kind player tail line

/-- What the parts have that lines are read with, the reading of every line has. -/
theorem inherited_consume (inherited : Inherited @P) (raw : Text) :
    P (draft.consume context raw) := by
  rw [consume]
  split
  · exact inherited.pure draft
  · exact inherited_takeLine inherited _

theorem inherited_addSilentWinners (inherited : Inherited @P) :
    P (draft.addSilentWinners context) := by
  have general : ∀ (names : List Text) (draft : Draft),
      P (names.foldlM (fun draft name => draft.addAction context .silent name 0) draft) := by
    intro names
    induction names with
    | nil => exact fun draft => inherited.pure draft
    | cons name names ih =>
      intro draft
      rw [List.foldlM_cons]
      exact inherited.bind (inherited_addAction inherited .silent name 0) ih
  exact general draft.silentWinners draft

/-- No line asks where the cursor stands or who is enrolled. -/
theorem settled_consume (context : HandContext) (draft : Draft) (raw : Text) :
    Settled (draft.consume context raw) :=
  inherited_consume inherited_settled raw

theorem settled_addSilentWinners (context : HandContext) (draft : Draft) :
    Settled (draft.addSilentWinners context) :=
  inherited_addSilentWinners inherited_settled

end Draft

/-! ## Blocks -/

/-- Cuts lines into blocks: each line that starts one, with the lines up to the
next. What comes before the first start belongs to no block. -/
def blocks (starts : Text → Bool) : List Text → List (List Text)
  | [] => []
  | line :: lines =>
    if starts line then (line :: lines.takeWhile fun line => !starts line) :: blocks starts lines
    else blocks starts lines

theorem length_blocks (starts : Text → Bool) (lines : List Text) :
    (blocks starts lines).length = lines.countP starts := by
  induction lines with
  | nil => rfl
  | cons line lines ih =>
    rw [blocks]
    split
    · next h => rw [List.length_cons, ih, List.countP_cons_of_pos h]
    · next h => rw [ih, List.countP_cons_of_neg h]

theorem blocks_dropWhile (starts : Text → Bool) (lines : List Text) :
    blocks starts (lines.dropWhile fun line => !starts line) = blocks starts lines := by
  induction lines with
  | nil => rfl
  | cons line lines ih =>
    by_cases h : starts line = true
    · simp [h]
    · rw [Bool.not_eq_true] at h
      simp [h, ih, blocks]

theorem blocks_of_dropWhile_cons {starts : Text → Bool} {lines ahead : List Text} {line : Text}
    (found : lines.dropWhile (fun line => !starts line) = line :: ahead) :
    starts line = true ∧ blocks starts lines =
      (line :: ahead.takeWhile fun line => !starts line) :: blocks starts ahead := by
  have start : starts line = true := by
    have := List.head?_dropWhile_not (fun line => !starts line) lines
    rw [found] at this
    simpa using this
  rw [← blocks_dropWhile, found]
  exact ⟨start, by simp [blocks, start]⟩

theorem exists_of_mem_blocks {starts : Text → Bool} {lines block : List Text}
    (cut : block ∈ blocks starts lines) :
    ∃ (line : Text) (ahead : List Text), starts line = true ∧
      block = line :: ahead.takeWhile fun line => !starts line := by
  induction lines with
  | nil => cases cut
  | cons line lines ih =>
    rw [blocks] at cut
    split at cut
    · next start =>
      rcases List.mem_cons.1 cut with rfl | later
      · exact ⟨line, lines, start, rfl⟩
      · exact ih later
    · exact ih cut

/-! ## Headers -/

/-- A header that is accepted names its hand. -/
theorem Room.handId_ne_nil {room : Room} {file line : Text} {logged : Logged Header}
    (accepted : room.readHeader file line = .ok logged) : logged.value.handId ≠ [] := by
  cases room with
  | winamax =>
    rw [Room.readHeader, Room.readHeaderWith, Winamax.readHeader] at accepted
    dsimp only at accepted
    split at accepted
    · cases accepted
    · split at accepted
      · split at accepted
        · cases accepted
        · next named =>
          split at accepted
          · cases accepted
          · cases accepted
            intro nobody
            exact named (List.isEmpty_iff.2 nobody)
      · cases accepted
  | pokerStars =>
    unfold Room.readHeader Room.readHeaderWith PokerStars.readHeader at accepted
    dsimp only at accepted
    split at accepted
    · cases accepted
    · next named =>
      split at accepted
      · cases accepted
      · split at accepted
        · cases accepted
        · cases accepted
          intro nobody
          exact named (List.isEmpty_iff.2 nobody)

/-! ## Reading a block -/

namespace History

open Reading

/-- The draft after the lines of a body. -/
def draftOf (context : HandContext) : List Text → Draft → Except ParseError Draft
  | [], draft => .ok draft
  | line :: lines, draft => do draftOf context lines (← (draft.consume context line).answer)

theorem draftOf_append {context : HandContext} (first second : List Text) (draft : Draft) :
    draftOf context (first ++ second) draft =
      (draftOf context first draft).bind (draftOf context second) := by
  induction first generalizing draft with
  | nil => rfl
  | cons line first ih =>
    simp only [List.cons_append, draftOf]
    cases (draft.consume context line).answer with
    | error e => rfl
    | ok next => exact ih next

theorem draftOf_cons {context : HandContext} {draft after : Draft} {line : Text}
    (read : Answers (draft.consume context line) (.ok after))
    (lines : List Text) : draftOf context (line :: lines) draft = draftOf context lines after := by
  rw [draftOf, read.answer_eq]
  rfl

/-- The hand of a block whose header and table line are accepted. -/
def bodyHand (room : Room) (file : Text) (header : Header) (table : TableLine)
    (body : List Text) : Except ParseError HandRecord := do
  let draft ← draftOf (contextOf room file header) body {}
  let draft ← (draft.addSilentWinners (contextOf room file header)).answer
  let hand ← (assemble room header table draft).create.mapError (.model file)
  return { header, table, hand }

/-- The hand of a block, of which the first line is the header and the second one
the table line. -/
def readBlock (room : Room) (file : Text) : List Text → Except ParseError HandRecord
  | [] => .error (.unexpectedEnd file .handHeader)
  | [header] => do
    let _ ← room.readHeader file header
    .error (.unexpectedEnd file .tableLine)
  | header :: table :: body => do
    let header ← Logged.value <$> room.readHeader file header
    let table ← room.readTableLine file table
    bodyHand room file header table body

theorem readBlock_of_header_error {room : Room} {file header : Text} {e : ParseError}
    (refused : room.readHeader file header = .error e) (lines : List Text) :
    readBlock room file (header :: lines) = .error e := by
  cases lines <;> simp only [readBlock, refused] <;> rfl

theorem readBlock_singleton_ne_ok (room : Room) (file header : Text) (record : HandRecord) :
    readBlock room file [header] ≠ .ok record := by
  intro accepted
  rw [readBlock] at accepted
  cases read : room.readHeader file header with
  | error e =>
    rw [read] at accepted
    cases accepted
  | ok logged =>
    rw [read] at accepted
    cases accepted

theorem readBlock_cons_cons {room : Room} {file header : Text} {logged : Logged Header}
    (accepted : room.readHeader file header = .ok logged) (line : Text) (body : List Text) :
    readBlock room file (header :: line :: body) =
      (room.readTableLine file line).bind fun table =>
        bodyHand room file logged.value table body := by
  simp only [readBlock, accepted]
  rfl

/-- A block that has a hand has a header, a table line and a body. -/
theorem readBlock_eq_ok {file : Text} {block : List Text} {record : HandRecord}
    (accepted : readBlock room file block = .ok record) :
    ∃ header line body logged table, block = header :: line :: body ∧
      room.readHeader file header = .ok logged ∧ room.readTableLine file line = .ok table ∧
      bodyHand room file logged.value table body = .ok record := by
  match block with
  | [] => cases accepted
  | [header] => exact (readBlock_singleton_ne_ok room file header record accepted).elim
  | header :: line :: body =>
    cases head : room.readHeader file header with
    | error e =>
      rw [readBlock_of_header_error head] at accepted
      cases accepted
    | ok logged =>
      rw [readBlock_cons_cons head] at accepted
      obtain ⟨table, read, made⟩ := exists_of_bind_eq_ok accepted
      exact ⟨header, line, body, logged, table, rfl, head, read, made⟩

/-- A session after a hand: of the same room and the same file, on a line that
starts no hand, and in front of the lines that follow the hand. -/
structure Behind (room : Room) (before : Session) (ahead : List Text) (after : Session) :
    Prop where
  site : after.roster.site = before.roster.site
  onLine : ∃ line, after.cursor.OnLine before.cursor.file line ahead ∧
    room.isHandStart line = false

/-- A session in front of the blocks that are left: of the same room and the same file. -/
structure Left (room : Room) (before : Session) (left : List (List Text)) (after : Session) :
    Prop where
  site : after.roster.site = before.roster.site
  file_eq : after.cursor.file = before.cursor.file
  blocks_eq : blocks room.isHandStart after.cursor.rest = left

variable {room : Room} {session : Session}

theorem Behind.left {ahead : List Text} {after : Session}
    (behind : Behind room session ahead after) :
    Left room session (blocks room.isHandStart ahead) after := by
  obtain ⟨site, line, on, inside⟩ := behind
  refine ⟨site, on.file_eq, ?_⟩
  rw [on.rest_eq, blocks, if_neg (by simp [inside])]

/-- A body is read up to the next header, and its draft is that of these lines. Wherever
the reading ends, the next header is still ahead. -/
theorem runFrom_readBody {context : HandContext} {draft : Draft} {current : Text}
    {lines : List Text} (ready : session.roster.site ≠ [])
    (on : session.cursor.OnLine session.cursor.file current lines)
    (inside : room.isHandStart current = false) :
    ∃ ahead after, (readBody room context lines draft).runFrom session =
        (draftOf context (lines.takeWhile fun line => !room.isHandStart line) draft, after) ∧
      Behind room session ahead after ∧
      blocks room.isHandStart ahead = blocks room.isHandStart lines ∧
      ∀ last, draftOf context (lines.takeWhile fun line => !room.isHandStart line) draft =
          .ok last → ahead = lines.dropWhile fun line => !room.isHandStart line := by
  induction lines generalizing session draft current with
  | nil => exact ⟨[], session, rfl, ⟨rfl, current, on, inside⟩, rfl, fun _ _ => rfl⟩
  | cons line lines ih =>
    rw [readBody]
    by_cases start : room.isHandStart line = true
    · refine ⟨line :: lines, session, ?_, ⟨rfl, current, on, inside⟩, rfl, fun _ _ => ?_⟩
      · simp [start, draftOf]
      · simp [start]
    · rw [Bool.not_eq_true] at start
      rw [if_neg (by simp [start])]
      have taken : (line :: lines).takeWhile (fun line => !room.isHandStart line) =
          line :: lines.takeWhile fun line => !room.isHandStart line := by simp [start]
      have dropped : (line :: lines).dropWhile (fun line => !room.isHandStart line) =
          lines.dropWhile fun line => !room.isHandStart line := by simp [start]
      have same : blocks room.isHandStart (line :: lines) = blocks room.isHandStart lines := by
        rw [blocks, if_neg (by simp [start])]
      obtain ⟨next, moved, onNext⟩ := Cursor.nextLine_of_cons on.ahead_eq
      rw [taken, dropped, same, runFrom_bind_of_ok (runFrom_nextLine session), moved]
      -- the line is read by a session whose cursor stands on it
      obtain ⟨roster, events, run, site⟩ :=
        (draft.settled_consume context line).answers { session with cursor := next } ready
      cases read : (draft.consume context line).answer with
      | error e =>
        rw [read] at run
        refine ⟨lines, { cursor := next, roster, events }, ?_, ⟨site, line, onNext, start⟩, rfl, ?_⟩
        · rw [runFrom_bind_of_error run, draftOf, read]
          rfl
        · intro last impossible
          rw [draftOf, read] at impossible
          cases impossible
      | ok read' =>
        rw [read] at run
        rw [runFrom_bind_of_ok run, draftOf, read]
        have stillReady : roster.site ≠ [] := site ▸ ready
        have onStill : next.OnLine next.file line lines := ⟨rfl, onNext.place_eq, onNext.ahead_eq⟩
        obtain ⟨ahead, after, body, ⟨sameSite, there, onThere, still⟩, left, done⟩ :=
          @ih { cursor := next, roster, events } read' line stillReady onStill start
        exact ⟨ahead, after, body, ⟨sameSite.trans site, there, onNext.file_eq ▸ onThere, still⟩,
          left, done⟩

/-- Where no hand begins any more, there is no header to be read. -/
theorem runFrom_readHeader_of_nil
    (absent : session.cursor.rest.dropWhile (fun line => !room.isHandStart line) = []) :
    (readHeader room).runFrom session =
      (.error (.unexpectedEnd session.cursor.file .handHeader),
        { session with cursor := (session.cursor.seek room.isHandStart).2 }) := by
  rw [readHeader]
  rw [runFrom_bind_of_ok (runFrom_get session), runFrom_bind_of_ok (runFrom_seek _ session),
    Cursor.seek_of_none absent]
  rfl

theorem runFrom_readHeader {header : Text} {ahead : List Text}
    (found : session.cursor.rest.dropWhile (fun line => !room.isHandStart line) =
      header :: ahead) :
    ∃ there events, (readHeader room).runFrom session =
        (Logged.value <$> room.readHeader session.cursor.file header,
          { session with cursor := there, events }) ∧
      there.OnLine session.cursor.file header ahead := by
  obtain ⟨there, sought, on⟩ := Cursor.seek_of_some found
  rw [readHeader]
  rw [runFrom_bind_of_ok (runFrom_get session), runFrom_bind_of_ok (runFrom_seek _ session),
    sought, if_pos rfl, runFrom_bind_of_ok (runFrom_get _), on.current_eq]
  cases room.readHeader session.cursor.file header with
  | ok logged => exact ⟨there, session.events ++ logged.events, rfl, on⟩
  | error e => exact ⟨there, session.events, rfl, on⟩

theorem runFrom_readTableLine_of_nil (ahead : session.cursor.ahead = []) :
    (readTableLine room).runFrom session = (.error (.unexpectedEnd session.cursor.file .tableLine),
      { session with cursor := session.cursor.next }) := by
  rw [readTableLine]
  rw [runFrom_bind_of_ok (runFrom_get session), runFrom_bind_of_ok (runFrom_nextLine session)]
  have stuck : session.cursor.nextLine.1 = false := by simp [Cursor.nextLine, ahead]
  rw [stuck]
  rfl

theorem runFrom_readTableLine_of_cons {line : Text} {lines : List Text}
    (ahead : session.cursor.ahead = line :: lines) :
    ∃ next, (readTableLine room).runFrom session =
        (room.readTableLine session.cursor.file line, { session with cursor := next }) ∧
      next.OnLine session.cursor.file line lines := by
  obtain ⟨next, moved, on⟩ := Cursor.nextLine_of_cons ahead
  rw [readTableLine]
  rw [runFrom_bind_of_ok (runFrom_get session), runFrom_bind_of_ok (runFrom_nextLine session),
    moved, if_pos rfl, runFrom_bind_of_ok (runFrom_get _), on.current_eq]
  refine ⟨next, ?_, on⟩
  cases room.readTableLine session.cursor.file line <;> rfl

/-- The first line of a hand is never read as a table line. -/
theorem readTableLine_of_isHandStart {file line : Text} (start : room.isHandStart line = true) :
    ∃ anchor, room.readTableLine file line = .error (.missingAnchor file anchor line) := by
  cases room with
  | winamax =>
    obtain ⟨rest, hrest⟩ := Option.isSome_iff_exists.1 start
    refine ⟨_, if_neg ?_⟩
    simp [Text.stripStart?_eq_some_iff.1 hrest, Text.hasStart, Text.stripStart?]
  | pokerStars =>
    obtain ⟨lead, hlead, starts⟩ := List.any_eq_true.1 start
    obtain ⟨rest, hrest⟩ := Option.isSome_iff_exists.1 starts
    refine ⟨_, if_neg ?_⟩
    rw [Text.stripStart?_eq_some_iff.1 hrest]
    simp only [PokerStars.handStarts, List.mem_cons, List.not_mem_nil, or_false] at hlead
    rcases hlead with rfl | rfl | rfl <;> simp [Text.hasStart, Text.stripStart?]

theorem runFrom_readRest {header : Header} {table : TableLine} {current : Text}
    {lines : List Text} (ready : session.roster.site ≠ [])
    (on : session.cursor.OnLine session.cursor.file current lines)
    (inside : room.isHandStart current = false) :
    ∃ ahead after, (readRest room header table).runFrom session =
      (bodyHand room session.cursor.file header table
        (lines.takeWhile fun line => !room.isHandStart line), after) ∧
      Behind room session ahead after ∧
      blocks room.isHandStart ahead = blocks room.isHandStart lines ∧
      ∀ record, bodyHand room session.cursor.file header table
          (lines.takeWhile fun line => !room.isHandStart line) = .ok record →
        ahead = lines.dropWhile fun line => !room.isHandStart line := by
  rw [readRest, bodyHand]
  rw [runFrom_bind_of_ok (runFrom_get session)]
  dsimp only
  rw [on.ahead_eq]
  generalize contextOf room session.cursor.file header = context
  obtain ⟨ahead, between, body, behind, left, done⟩ :=
    @runFrom_readBody room session context {} _ _ ready on inside
  cases hdraft : draftOf context (lines.takeWhile fun line => !room.isHandStart line) {} with
  | error e =>
    rw [hdraft] at body
    refine ⟨ahead, between, runFrom_bind_of_error body _, behind, left, ?_⟩
    rintro record ⟨⟩
  | ok draft =>
    rw [hdraft] at body
    rw [runFrom_bind_of_ok body]
    obtain ⟨sameSite, line, onLine, still⟩ := behind
    have stillReady : between.roster.site ≠ [] := sameSite ▸ ready
    have silent := draft.settled_addSilentWinners context
    -- what is left to do answers from every session of a room
    obtain ⟨roster, events, run, site⟩ := (silent.bind fun last =>
      (settled_ofModel session.cursor.file (assemble room header table last).create).bind
        fun hand => settled_pure { header, table, hand : HandRecord }).answers between stillReady
    refine ⟨ahead, { between with roster, events }, run.trans ?_,
      ⟨site.trans sameSite, line, onLine, still⟩, left, fun _ _ => done draft hdraft⟩
    rw [Settled.answer_bind silent fun last =>
      (settled_ofModel session.cursor.file _).bind fun hand => settled_pure _]
    simp only [Settled.answer_bind (settled_ofModel session.cursor.file _) fun hand =>
      settled_pure _, (answers_ofModel session.cursor.file _).answer_eq,
      (answers_pure _).answer_eq]
    rfl

/-- The next hand is accepted just as its block is, and the cursor is left inside
the block. Behind an accepted header, it is left in front of the other blocks, also
where the reading of the hand fails. -/
theorem runFrom_readHand {header : Text} {ahead : List Text} (ready : session.roster.site ≠ [])
    (found : session.cursor.rest.dropWhile (fun line => !room.isHandStart line) =
      header :: ahead) :
    ∃ result after, (readHand room).runFrom session = (result, after) ∧
      (∀ record, result = .ok record ↔ readBlock room session.cursor.file
        (header :: ahead.takeWhile fun line => !room.isHandStart line) = .ok record) ∧
      (∀ record, result = .ok record →
        Behind room session (ahead.dropWhile fun line => !room.isHandStart line) after) ∧
      ∀ logged, room.readHeader session.cursor.file header = .ok logged →
        Left room session (blocks room.isHandStart ahead) after := by
  obtain ⟨there, events, head, on⟩ := runFrom_readHeader found
  rw [readHand]
  cases hheader : room.readHeader session.cursor.file header with
  | error e =>
    rw [hheader] at head
    refine ⟨_, _, runFrom_bind_of_error head _, fun record => ?_, ?_, ?_⟩
    · rw [readBlock_of_header_error hheader]
    · rintro record ⟨⟩
    · rintro logged ⟨⟩
  | ok logged =>
    rw [hheader] at head
    rw [runFrom_bind_of_ok head]
    cases ahead with
    | nil =>
      have stuck := @runFrom_readTableLine_of_nil room
        { session with cursor := there, events } on.ahead_eq
      refine ⟨_, _, runFrom_bind_of_error stuck _, fun record => ?_, ?_, fun _ _ => ?_⟩
      · constructor
        · rintro ⟨⟩
        · intro accepted
          exact (readBlock_singleton_ne_ok _ _ _ _ accepted).elim
      · rintro record ⟨⟩
      · refine ⟨rfl, ?_, ?_⟩ <;> simp [Cursor.next, Cursor.rest, on.ahead_eq, on.file_eq]
    | cons line lines =>
      obtain ⟨next, run, onNext⟩ := @runFrom_readTableLine_of_cons room
        { session with cursor := there, events } line lines on.ahead_eq
      rw [on.file_eq] at run onNext
      have standing : Left room session (blocks room.isHandStart (line :: lines))
          { session with cursor := next, events } :=
        ⟨rfl, onNext.file_eq, congrArg (blocks room.isHandStart) onNext.rest_eq⟩
      by_cases start : room.isHandStart line = true
      · -- the block is a header alone, and its next line is no table line either
        obtain ⟨e, refused⟩ := @readTableLine_of_isHandStart room session.cursor.file _ start
        rw [refused] at run
        refine ⟨_, _, runFrom_bind_of_error run _, fun record => ?_, ?_, fun _ _ => standing⟩
        · rw [List.takeWhile_cons_of_neg (by simp [start])]
          constructor
          · rintro ⟨⟩
          · intro accepted
            exact (readBlock_singleton_ne_ok _ _ _ _ accepted).elim
        · rintro record ⟨⟩
      · rw [Bool.not_eq_true] at start
        rw [List.takeWhile_cons_of_pos (by simp [start]),
          List.dropWhile_cons_of_pos (by simp [start]),
          readBlock_cons_cons hheader]
        cases htable : room.readTableLine session.cursor.file line with
        | error e =>
          rw [htable] at run
          refine ⟨_, _, runFrom_bind_of_error run _, fun record => Iff.rfl, ?_, fun _ _ => standing⟩
          rintro record ⟨⟩
        | ok table =>
          rw [htable] at run
          rw [runFrom_bind_of_ok run]
          obtain ⟨others, after, finished, behind, left, done⟩ := @runFrom_readRest room
            { session with cursor := next, events } logged.value table line lines ready
            (onNext.file_eq ▸ onNext) start
          obtain ⟨site, current, onLast, inside⟩ := behind
          have passed : Behind room session others after :=
            ⟨site, current, onNext.file_eq ▸ onLast, inside⟩
          rw [onNext.file_eq] at finished done
          refine ⟨_, after, finished, fun record => Iff.rfl, fun record accepted => ?_, fun _ _ => ?_⟩
          · exact done record accepted ▸ passed
          · rw [blocks, if_neg (by simp [start]), ← left]
            exact passed.left

/-- A hand that is read is the hand of the next block. -/
theorem readBlock_of_runFrom_readHand {session after : Session} {record : HandRecord}
    (ready : session.roster.site ≠ [])
    (run : (readHand room).runFrom session = (.ok record, after)) :
    ∃ block, (blocks room.isHandStart session.cursor.rest).head? = some block ∧
      readBlock room session.cursor.file block = .ok record := by
  cases found : session.cursor.rest.dropWhile fun line => !room.isHandStart line with
  | nil =>
    rw [readHand, runFrom_bind_of_error (runFrom_readHeader_of_nil found)] at run
    cases run
  | cons header ahead =>
    obtain ⟨result, last, whole, accepted, -⟩ := @runFrom_readHand room session _ _ ready found
    rw [whole] at run
    cases run
    exact ⟨_, congrArg List.head? (blocks_of_dropWhile_cons found).2, (accepted record).1 rfl⟩

end History

end HandHistory
