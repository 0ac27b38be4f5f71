import HandHistory.Proofs.Games

/-!
# Resuming after errors

A reader that is told of an error may go on with the next hand. What it then gets are
the blocks of the file, one answer for each: a hand where the block has one by itself,
and one error where it has none. A block with a bad header is where this ends. The
cursor stays on the header, and whoever goes on gets the error of it again.

The step is `runFrom_readHand`: behind a good header, the cursor is left in front of
the other blocks, wherever in the block the reading has failed. The run over the blocks
that open is `left_readHands`, and `Stuck` is what comes behind them.
-/

namespace HandHistory

namespace History

open Reading

/-- Reads a number of hands, one after the other, and goes on after errors. -/
def readHands (room : Room) : (count : Nat) → Session →
    List (Except ParseError HandRecord) × Session
  | 0, session => ([], session)
  | count + 1, session =>
    let (answer, between) := (readHand room).runFrom session
    let (answers, after) := readHands room count between
    (answer :: answers, after)

/-- Whether the header of a block is accepted. -/
def opens (room : Room) (file : Text) (block : List Text) : Bool :=
  (room.readHeader file (block.headD [])).isOk

/-- The error that reading ends on, in front of blocks of which the first does not open. -/
def lastError (room : Room) (file : Text) : List (List Text) → ParseError
  | [] => .unexpectedEnd file .handHeader
  | block :: _ =>
    match room.readHeader file (block.headD []) with
    | .error e => e
    | .ok _ => .unexpectedEnd file .handHeader

/-- A session in which reading a hand fails and changes nothing. -/
def Stuck (room : Room) (e : ParseError) (session : Session) : Prop :=
  (readHand room).runFrom session = (.error e, session)

variable {room : Room} {session : Session}

theorem readHands_succ (count : Nat) {answer : Except ParseError HandRecord} {between : Session}
    (run : (readHand room).runFrom session = (answer, between)) :
    readHands room (count + 1) session =
      (answer :: (readHands room count between).1, (readHands room count between).2) := by
  rw [readHands, run]

theorem readHands_add (first second : Nat) :
    readHands room (first + second) session =
      ((readHands room first session).1 ++
          (readHands room second (readHands room first session).2).1,
        (readHands room second (readHands room first session).2).2) := by
  induction first generalizing session with
  | zero => simp [readHands]
  | succ first ih =>
    rcases run : (readHand room).runFrom session with ⟨answer, between⟩
    rw [Nat.add_right_comm, readHands_succ _ run, readHands_succ _ run, ih, List.cons_append]

theorem Stuck.readHands_eq {e : ParseError} (stuck : Stuck room e session) (count : Nat) :
    readHands room count session = (List.replicate count (.error e), session) := by
  induction count with
  | zero => rfl
  | succ count ih => rw [readHands_succ count stuck, ih, List.replicate_succ]

/-! ## Where reading ends -/

/-- On a header that is refused, the cursor stays. -/
theorem stuck_of_onLine {header : Text} {ahead : List Text} {e : ParseError}
    (on : session.cursor.OnLine session.cursor.file header ahead)
    (start : room.isHandStart header = true)
    (refused : room.readHeader session.cursor.file header = .error e) : Stuck room e session := by
  have head : (readHeader room).runFrom session = (.error e, session) := by
    rw [readHeader]
    rw [runFrom_bind_of_ok (runFrom_get session), runFrom_bind_of_ok (runFrom_seek _ session),
      on.seek_eq start, if_pos rfl, runFrom_bind_of_ok (runFrom_get _), on.current_eq, refused]
    rfl
  rw [Stuck, readHand]
  exact runFrom_bind_of_error head _

/-- Behind the last line, the cursor stays. -/
theorem stuck_of_finished {file : Text} {index : Nat} {roster : Roster} {events : List Event} :
    Stuck room (.unexpectedEnd file .handHeader)
      { cursor := { file, index, place := .finished, ahead := [] }, roster, events } := by
  rw [Stuck, readHand]
  exact runFrom_bind_of_error (runFrom_readHeader_of_nil rfl) _

/-- Where a session that is stuck stands: behind the last line, or on the header of the
first block that is left. -/
def StandsAt (file : Text) (left : List (List Text)) (session : Session) : Prop :=
  match left with
  | [] => session.cursor.isFinished = true
  | block :: _ => ∃ ahead, session.cursor.OnLine file (block.headD []) ahead

/-- In front of blocks of which the first does not open, reading fails and is stuck. -/
theorem runFrom_readHand_stuck
    (closed : ∀ block ∈ (blocks room.isHandStart session.cursor.rest).head?,
      opens room session.cursor.file block = false) :
    ∃ after, (readHand room).runFrom session =
        (.error (lastError room session.cursor.file
          (blocks room.isHandStart session.cursor.rest)), after) ∧
      Stuck room (lastError room session.cursor.file
        (blocks room.isHandStart session.cursor.rest)) after ∧
      StandsAt session.cursor.file (blocks room.isHandStart session.cursor.rest) after := by
  cases found : session.cursor.rest.dropWhile fun line => !room.isHandStart line with
  | nil =>
    have head := @runFrom_readHeader_of_nil room session found
    obtain ⟨last, ends⟩ := Cursor.seek_eq_false (Cursor.seek_of_none found)
    rw [ends] at head
    rw [blocks_eq_nil found, readHand]
    exact ⟨_, runFrom_bind_of_error head _, stuck_of_finished, rfl⟩
  | cons header ahead =>
    obtain ⟨start, left⟩ := blocks_of_dropWhile_cons found
    rw [left] at closed ⊢
    have refuses := closed _ rfl
    obtain ⟨there, events, head, on⟩ := @runFrom_readHeader room session header ahead found
    rw [opens, List.headD_cons] at refuses
    rw [lastError, List.headD_cons, readHand]
    cases refused : room.readHeader session.cursor.file header with
    | ok logged =>
      rw [refused] at refuses
      cases refuses
    | error e =>
      rw [refused] at head
      refine ⟨_, runFrom_bind_of_error head _, ?_, ahead, on⟩
      have standing : there.OnLine there.file header ahead := ⟨rfl, on.place_eq, on.ahead_eq⟩
      exact stuck_of_onLine standing start (on.file_eq.symm ▸ refused)

/-! ## The blocks that open -/

/-- The answer for a block in a file is a hand just if it has one by itself, and then
the same one. -/
def Agrees (room : Room) (file : Text) (alone : Roster) (block : List Text)
    (answer : Except ParseError HandRecord) : Prop :=
  ∀ record, answer = .ok record ↔ readAlone room file alone block = .ok record

theorem Agrees.toOption_eq {file : Text} {alone : Roster} {block : List Text}
    {answer : Except ParseError HandRecord} (agrees : Agrees room file alone block answer) :
    answer.toOption = (readAlone room file alone block).toOption := by
  cases result : answer with
  | ok record => rw [(agrees record).1 result]
  | error e =>
    cases read : readAlone room file alone block with
    | error e => rfl
    | ok record =>
      rw [(agrees record).2 read] at result
      cases result

/-- The hands among the answers are those of the blocks that have one. -/
theorem filterMap_toOption_eq {file : Text} {alone : Roster} {heads : List (List Text)}
    {answers : List (Except ParseError HandRecord)}
    (all : List.Forall₂ (Agrees room file alone) heads answers) :
    answers.filterMap Except.toOption =
      heads.filterMap fun block => (readAlone room file alone block).toOption := by
  induction all with
  | nil => rfl
  | cons agrees _ ih => rw [List.filterMap_cons, List.filterMap_cons, agrees.toOption_eq, ih]

/-- The step: a block that opens costs one answer, and the other blocks are left. -/
theorem left_readHand {alone : Roster} (ready : session.roster.site ≠ [])
    (aloneReady : alone.site ≠ []) {block : List Text} {others : List (List Text)}
    (found : blocks room.isHandStart session.cursor.rest = block :: others)
    (opened : opens room session.cursor.file block = true) :
    ∃ answer after, (readHand room).runFrom session = (answer, after) ∧
      Agrees room session.cursor.file alone block answer ∧ Left room session others after := by
  cases hrest : session.cursor.rest.dropWhile fun line => !room.isHandStart line with
  | nil =>
    rw [blocks_eq_nil hrest] at found
    cases found
  | cons header ahead =>
    have cut : block ∈ blocks room.isHandStart session.cursor.rest := by
      rw [found]
      exact List.mem_cons_self
    have same := (blocks_of_dropWhile_cons hrest).2.symm.trans found
    obtain ⟨rfl, rfl⟩ := List.cons.inj same
    obtain ⟨answer, after, run, accepted, -, left⟩ :=
      @runFrom_readHand room session header ahead ready hrest
    refine ⟨answer, after, run, fun record => ?_, ?_⟩
    · exact (accepted record).trans (readAlone_eq_ok_iff aloneReady cut record).symm
    · rw [opens, List.headD_cons] at opened
      cases head : room.readHeader session.cursor.file header with
      | ok logged => exact left logged head
      | error e =>
        rw [head] at opened
        cases opened

/-- A session in front of blocks that open, and of others behind them. -/
structure InFront (room : Room) (file : Text) (heads others : List (List Text))
    (session : Session) : Prop where
  ready : session.roster.site ≠ []
  file_eq : session.cursor.file = file
  blocks_eq : blocks room.isHandStart session.cursor.rest = heads ++ others
  opened : ∀ block ∈ heads, opens room file block = true

section InFront

variable {alone : Roster} {file : Text} {heads others : List (List Text)}

theorem InFront.take (front : InFront room file heads others session) (count : Nat) :
    InFront room file (heads.take count) (heads.drop count ++ others) session where
  ready := front.ready
  file_eq := front.file_eq
  blocks_eq := by rw [← List.append_assoc, List.take_append_drop, front.blocks_eq]
  opened block inside := front.opened block (List.mem_of_mem_take inside)

/-- The run: as long as blocks open, each costs one answer, and the others are left. -/
theorem left_readHands (aloneReady : alone.site ≠ [])
    (front : InFront room file heads others session) :
    List.Forall₂ (Agrees room file alone) heads (readHands room heads.length session).1 ∧
      Left room session others (readHands room heads.length session).2 := by
  induction heads generalizing session with
  | nil => exact ⟨.nil, rfl, rfl, front.blocks_eq⟩
  | cons block heads ih =>
    obtain ⟨ready, rfl, found, opened⟩ := front
    obtain ⟨answer, after, run, agrees, left⟩ :=
      left_readHand ready aloneReady found (opened block List.mem_cons_self)
    obtain ⟨all, last⟩ := ih ⟨left.site ▸ ready, left.file_eq, left.blocks_eq,
      fun other inside => opened other (List.mem_cons_of_mem block inside)⟩
    rw [List.length_cons, readHands_succ heads.length run]
    exact ⟨.cons agrees all, last.site.trans left.site, last.file_eq.trans left.file_eq,
      last.blocks_eq⟩

/-- Behind the blocks that open, reading ends in one session that is stuck. -/
theorem exists_stuck_readHands (aloneReady : alone.site ≠ [])
    (front : InFront room file heads others session)
    (closed : ∀ block ∈ others.head?, opens room file block = false) :
    ∃ answers last, List.Forall₂ (Agrees room file alone) heads answers ∧
      Stuck room (lastError room file others) last ∧ StandsAt file others last ∧
      ∀ more, readHands room (heads.length + (more + 1)) session =
        (answers ++ List.replicate (more + 1) (.error (lastError room file others)), last) := by
  obtain ⟨all, left⟩ := left_readHands aloneReady front
  rcases first : readHands room heads.length session with ⟨answers, between⟩
  rw [first] at all left
  have sameFile : between.cursor.file = file := left.file_eq.trans front.file_eq
  have ends := @runFrom_readHand_stuck room between
  rw [left.blocks_eq, sameFile] at ends
  obtain ⟨last, run, stuck, stands⟩ := ends closed
  refine ⟨answers, last, all, stuck, stands, fun more => ?_⟩
  rw [readHands_add, first, readHands_succ more run, stuck.readHands_eq, List.replicate_succ]

/-- The answers to any number of calls: one for each block that opens, as far as the
calls go, and the last error for each call after these. -/
theorem exists_answers_readHands (aloneReady : alone.site ≠ [])
    (front : InFront room file heads others session)
    (closed : ∀ block ∈ others.head?, opens room file block = false) (count : Nat) :
    ∃ answers, (readHands room count session).1 = answers ++
        List.replicate (count - heads.length) (.error (lastError room file others)) ∧
      List.Forall₂ (Agrees room file alone) (heads.take count) answers := by
  by_cases within : count ≤ heads.length
  · have few := (left_readHands aloneReady (front.take count)).1
    rw [List.length_take_of_le within] at few
    refine ⟨_, ?_, few⟩
    rw [Nat.sub_eq_zero_of_le within, List.replicate_zero, List.append_nil]
  · obtain ⟨answers, last, all, -, -, behind⟩ := exists_stuck_readHands aloneReady front closed
    obtain ⟨more, rfl⟩ := Nat.exists_eq_add_of_lt (Nat.lt_of_not_le within)
    have left : heads.length + more + 1 - heads.length = more + 1 := by omega
    refine ⟨answers, ?_, ?_⟩
    · rw [Nat.add_assoc, behind more, ← Nat.add_assoc, left]
    · rwa [List.take_of_length_le (by omega)]

end InFront

/-- Reading goes on after errors. Each block in front of the first one that does not open
costs one answer, which is a hand just if the block has it by itself; behind these blocks
the same error comes again and again, and the session is the same after each. -/
theorem readHands_resume (room : Room) (file text : Text) (roster alone : Roster)
    (ready : roster.site ≠ []) (aloneReady : alone.site ≠ []) :
    let start : Session := { cursor := .ofText file text, roster }
    let found := blocks room.isHandStart (Text.lines text)
    let heads := found.takeWhile (opens room file)
    let others := found.dropWhile (opens room file)
    (∀ count, ∃ answers,
      (readHands room count start).1 = answers ++
        List.replicate (count - heads.length) (.error (lastError room file others)) ∧
      List.Forall₂ (Agrees room file alone) (heads.take count) answers ∧
      (readHands room count start).1.filterMap Except.toOption =
        (heads.take count).filterMap fun block => (readAlone room file alone block).toOption) ∧
    (∀ count, heads.length < count →
      Stuck room (lastError room file others) (readHands room count start).2 ∧
        StandsAt file others (readHands room count start).2 ∧
        (readHands room count start).2 = (readHands room (heads.length + 1) start).2) ∧
    ∀ session header ahead e, session.cursor.OnLine file header ahead →
      room.isHandStart header = true → room.readHeader file header = .error e →
        Stuck room e session := by
  intro start found heads others
  have front : InFront room file heads others start :=
    ⟨ready, rfl, List.takeWhile_append_dropWhile.symm, fun _ inside => List.mem_takeWhile_imp inside⟩
  have closed : ∀ block ∈ others.head?, opens room file block = false := by
    intro block first
    have := List.head?_dropWhile_not (opens room file) found
    rw [Option.mem_def.1 first] at this
    simpa using this
  refine ⟨fun count => ?_, fun count beyond => ?_, fun session header ahead e on begins refused => ?_⟩
  · obtain ⟨answers, same, all⟩ := exists_answers_readHands aloneReady front closed count
    refine ⟨answers, same, all, ?_⟩
    rw [same, List.filterMap_append, filterMap_toOption_eq all]
    simp [Except.toOption]
  · obtain ⟨answers, last, -, stuck, stands, behind⟩ :=
      exists_stuck_readHands aloneReady front closed
    obtain ⟨more, rfl⟩ := Nat.exists_eq_add_of_lt beyond
    rw [Nat.add_assoc, behind more, behind 0]
    exact ⟨stuck, stands, rfl⟩
  · obtain rfl := on.file_eq
    exact stuck_of_onLine on begins refused

/-- Two good hands, one that is cut off by the header of the next, and a bad header. -/
theorem readHands_resume_four_blocks :
    let text : Text := "Winamax Poker - HandId: #1 - 2014/11/12 23:49:45\n" ++
      "Table: 'Nice' 5-max\nSeat 1: ann (5)\n" ++
      "Winamax Poker - HandId: #2 - 2014/11/12 23:50:45\n" ++
      "Winamax Poker - HandId: #3 - 2014/11/12 23:51:45\n" ++
      "Table: 'Nice' 5-max\nSeat 2: bob (5)\n" ++
      "Winamax Poker - HandId: #4\nTable: 'Nice' 5-max\nSeat 2: bob (5)\n"
    let start : Session :=
      { cursor := .ofText [] text, roster := { site := Room.winamax.siteName } }
    ((readHands .winamax 5 start).1.map fun answer => answer.map fun record => record.hand.id).map
        Except.toOption = [some "1".toList, none, some "3".toList, none, none] ∧
      ((blocks Room.winamax.isHandStart (Text.lines text)).takeWhile
        (opens .winamax [])).length = 3 ∧
      (readHands .winamax 5 start).2 = (readHands .winamax 4 start).2 := by
  intro text start
  have ready : start.roster.site ≠ [] := Room.winamax.siteName_ne_nil
  have three : ((blocks Room.winamax.isHandStart (Text.lines text)).takeWhile
      (opens .winamax [])).length = 3 := by decide +kernel
  obtain ⟨-, behind, -⟩ := readHands_resume .winamax [] text start.roster start.roster ready ready
  obtain ⟨-, -, same⟩ := behind 5 (by rw [three]; decide)
  rw [three] at same
  exact ⟨by decide +kernel, three, same⟩

end History

end HandHistory
