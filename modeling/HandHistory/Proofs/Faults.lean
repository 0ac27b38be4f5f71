import HandHistory.Proofs.Said

/-!
# What costs a hand

A hand is not read just if its block has a `History.Fault`. Four of the faults are in
the header, in the table line and in the row of seats. The others are in a line of the
body, and there are only two: a deal of something that is no card, and an action or an
award whose player has the empty name while a place at the table is free.

The last one is not meant to be a fault. A line about somebody who has no seat is left
out, but the empty name stands at every free place, and so it passes for the name of
a player until it is to be enrolled.
-/

namespace HandHistory

namespace Reading

/-- An answer that no session changes has the property that every answer has. -/
theorem Yields.of_answer {α : Type} {x : Reading α} {post : α → Prop} (hx : Yields x post)
    {a : α} (answered : x.answer = .ok a) : post a := by
  refine hx blankSession a (x.runFrom blankSession).2 ?_
  rw [← answered]
  rfl

end Reading

namespace Draft

open Reading

variable {context : HandContext} {draft : Draft}

/-- Players with a name can always be given a silent action. -/
theorem answers_silent (ofHand : context.handId ≠ []) {names : List Text}
    (named : ∀ name ∈ names, name ≠ []) :
    ∃ street actions, Answers
      (names.foldlM (fun draft name => draft.addAction context .silent name 0) draft)
      (.ok { draft with street, actions }) := by
  induction names generalizing draft with
  | nil => exact ⟨draft.street, draft.actions, answers_pure draft⟩
  | cons name names ih =>
    have acts := @answers_addAction context draft .silent name 0 ofHand
      (named name List.mem_cons_self) Amount.not_zero_lt_zero
    obtain ⟨street, actions, others⟩ :=
      @ih (draft.acted context.handId (Written.silentMove draft.currentStreet name))
        fun other hother => named other (List.mem_cons_of_mem name hother)
    refine ⟨street, actions, ?_⟩
    rw [List.foldlM_cons]
    exact acts.bind others

end Draft

namespace History

open Reading

variable {room : Room} {context : HandContext} {draft : Draft}

/-- What a draft keeps, it keeps through the lines of a body. -/
theorem inBody_draftOf {after : Draft} (body : draft.InBody context) {lines : List Text}
    (read : draftOf context lines draft = .ok after) : after.InBody context := by
  induction lines generalizing draft with
  | nil =>
    cases read
    exact body
  | cons line lines ih =>
    rw [draftOf] at read
    cases answered : (draft.consume context line).answer with
    | error e =>
      rw [answered] at read
      cases read
    | ok next =>
      rw [answered] at read
      exact ih ((Draft.yields_consume line body).of_answer answered) read

/-- What can fail a hand, by the lines of its block. -/
inductive Fault (room : Room) (file : Text) : (block : List Text) → Prop
  | noHeader : Fault room file []
  | header {header : Text} {lines : List Text} {e : ParseError}
    (refused : room.readHeader file header = .error e) : Fault room file (header :: lines)
  | noTableLine {header : Text} : Fault room file [header]
  | tableLine {header line : Text} {body : List Text} {e : ParseError}
    (refused : room.readTableLine file line = .error e) : Fault room file (header :: line :: body)
  | unnamedTable {header line : Text} {body : List Text} {table : TableLine}
    (read : room.readTableLine file line = .ok table) (unnamed : table.table = []) :
    Fault room file (header :: line :: body)
  /-- No line gives a place away. -/
  | emptyTable {header line : Text} {body : List Text}
    (nowhere : ∀ said ∈ BodyLine.said true body, said.seating? = none) :
    Fault room file (header :: line :: body)
  /-- A deal shows something among its first five tokens that is no card. -/
  | noCard {header line : Text} {body : List Text} {said : BodyLine} {group token : Text}
    (told : said ∈ BodyLine.said true body) (deals : said.group? = some group)
    (early : token ∈ (CardRow.groupTokens room.cardDelimiter group).take 5)
    (stranger : ∀ card : Card, token ≠ card.token) : Fault room file (header :: line :: body)
  /-- Nobody acts or wins, and nobody has a seat. -/
  | nobody {header line : Text} {body : List Text} {said : BodyLine}
    (told : said ∈ BodyLine.said true body) (unnamed : said.actor? = some [])
    (free : [] ∈ (BodyLine.seats (BodyLine.said true body)).toList) :
    Fault room file (header :: line :: body)

/-- The hand of a body is the one that its draft and the lines in front of it tell. -/
theorem bodyHand_cases {file : Text} {header : Header} {table : TableLine} (body : List Text)
    (ofHand : header.handId ≠ []) :
    let said := BodyLine.said true body
    ((∃ line ∈ said, line.Faulty room.cardDelimiter (BodyLine.seats said)) ∧
      ∃ e, bodyHand room file header table body = .error e) ∨
    ((¬ ∃ line ∈ said, line.Faulty room.cardDelimiter (BodyLine.seats said)) ∧
      ∃ hand : Hand, hand.id = header.handId ∧ hand.site = room.siteName ∧
        hand.table = table.table ∧ hand.seats = BodyLine.seats said ∧ ¬ hand.ante < 0 ∧
        bodyHand room file header table body =
          (hand.create.mapError (.model file)).map fun hand => { header, table, hand }) := by
  intro said
  have faults := @draftOf_isError_iff (contextOf room file header) {} ofHand rfl body
  rw [bodyHand]
  cases read : draftOf (contextOf room file header) body {} with
  | error e => exact Or.inl ⟨faults.1 ⟨e, read⟩, e, rfl⟩
  | ok draft =>
    obtain ⟨seats, ante⟩ := draftOf_eq_ok ofHand rfl read
    have sound := inBody_draftOf (Draft.inBody_seats (contextOf room file header) .free) read
    obtain ⟨street, actions, silent⟩ := @Draft.answers_silent (contextOf room file header) draft
      ofHand draft.silentWinners fun name hname =>
        sound.winnersNamed name (List.mem_filter.1 hname).1
    refine Or.inr ⟨fun faulty => ?_, assemble room header table { draft with street, actions },
      rfl, rfl, rfl, seats, ante Amount.not_zero_lt_zero, ?_⟩
    · obtain ⟨e, failed⟩ := faults.2 faulty
      rw [read] at failed
      cases failed
    · have made : (draft.addSilentWinners (contextOf room file header)).answer =
          .ok { draft with street, actions } := silent.answer_eq
      show ((draft.addSilentWinners (contextOf room file header)).answer.bind fun draft => _) = _
      rw [made, Except.bind]
      generalize assemble room header table { draft with street, actions } = hand
      cases hand.create <;> rfl

theorem bodyHand_isError_iff {file : Text} {header : Header} {table : TableLine}
    {body : List Text} (ofHand : header.handId ≠ []) :
    (∃ e, bodyHand room file header table body = .error e) ↔
      (∃ line ∈ BodyLine.said true body, line.Faulty room.cardDelimiter
        (BodyLine.seats (BodyLine.said true body))) ∨
      table.table = [] ∨ ∀ line ∈ BodyLine.said true body, line.seating? = none := by
  rcases @bodyHand_cases room file header table body ofHand with
    ⟨faulty, failed⟩ | ⟨sound, hand, id, site, atTable, seats, ante, made⟩
  · exact iff_of_true failed (Or.inl faulty)
  · rw [or_iff_right sound, made]
    have occupied := BodyLine.occupied_seats_iff (BodyLine.said true body)
    rw [← seats] at occupied
    cases created : hand.create with
    | error e =>
      refine iff_of_true ⟨_, rfl⟩ ?_
      -- a hand that keeps both rules would have been made
      by_contra keeps
      push Not at keeps
      have rules := Hand.create_of_rules (id ▸ ofHand) (site ▸ room.siteName_ne_nil)
        (atTable ▸ keeps.1) ante (occupied.2 keeps.2)
      rw [created] at rules
      cases rules
    | ok made =>
      obtain ⟨-, -, named, someone⟩ := Hand.create_eq_ok created
      refine iff_of_false ?_ ?_
      · rintro ⟨e, impossible⟩
        cases impossible
      · rintro (unnamed | nowhere)
        · exact named (atTable.trans unnamed)
        · obtain ⟨line, told, seated⟩ := occupied.1 someone
          exact seated (nowhere line told)

/-- A block has no hand just if there is a fault in it. -/
theorem readBlock_isError_iff (room : Room) (file : Text) (block : List Text) :
    (∃ e, readBlock room file block = .error e) ↔ Fault room file block := by
  match block with
  | [] => exact iff_of_true ⟨_, rfl⟩ .noHeader
  | [header] =>
    refine iff_of_true ?_ .noTableLine
    cases read : readBlock room file [header] with
    | error e => exact ⟨e, rfl⟩
    | ok record => exact (readBlock_singleton_ne_ok room file header record read).elim
  | header :: line :: body =>
    cases headerRead : room.readHeader file header with
    | error e => exact iff_of_true ⟨e, readBlock_of_header_error headerRead _⟩ (.header headerRead)
    | ok logged =>
      rw [readBlock_cons_cons headerRead]
      cases tableRead : room.readTableLine file line with
      | error e => exact iff_of_true ⟨e, rfl⟩ (.tableLine tableRead)
      | ok table =>
        rw [Except.bind, bodyHand_isError_iff (Room.handId_ne_nil headerRead)]
        constructor
        · rintro (⟨said, told, faulty⟩ | unnamed | nowhere)
          · cases faulty with
            | noCard deals flawed =>
              obtain ⟨token, early, stranger⟩ := flawed
              exact .noCard told deals early stranger
            | nobody unnamed free => exact .nobody told unnamed free
          · exact .unnamedTable tableRead unnamed
          · exact .emptyTable nowhere
        · intro fault
          cases fault with
          | header refused =>
            rw [headerRead] at refused
            cases refused
          | tableLine refused =>
            rw [tableRead] at refused
            cases refused
          | unnamedTable read unnamed =>
            rw [tableRead] at read
            cases read
            exact Or.inr (Or.inl unnamed)
          | emptyTable nowhere => exact Or.inr (Or.inr nowhere)
          | noCard told deals early stranger =>
            exact Or.inl ⟨_, told, .noCard deals ⟨_, early, stranger⟩⟩
          | nobody told unnamed free => exact Or.inl ⟨_, told, .nobody unnamed free⟩

variable {session : Session}

/-- Reading fails just if the next block has no hand. -/
theorem runFrom_readHand_isError_iff (ready : session.roster.site ≠ []) :
    (∃ e after, (readHand room).runFrom session = (.error e, after)) ↔
      ∃ e, readBlock room session.cursor.file
        ((blocks room.isHandStart session.cursor.rest).headD []) = .error e := by
  cases found : session.cursor.rest.dropWhile fun line => !room.isHandStart line with
  | nil =>
    have nothing : blocks room.isHandStart session.cursor.rest = [] := by
      rw [← blocks_dropWhile, found]
      rfl
    rw [nothing]
    exact iff_of_true ⟨_, _, runFrom_bind_of_error (runFrom_readHeader_of_nil found) _⟩ ⟨_, rfl⟩
  | cons header ahead =>
    obtain ⟨-, next⟩ := blocks_of_dropWhile_cons found
    obtain ⟨result, after, run, same, -⟩ := @runFrom_readHand room session header ahead ready found
    rw [next, List.headD_cons, run]
    cases result with
    | error e =>
      refine iff_of_true ⟨e, after, rfl⟩ ?_
      cases read : readBlock room session.cursor.file
          (header :: ahead.takeWhile fun line => !room.isHandStart line) with
      | error e => exact ⟨e, rfl⟩
      | ok record => cases (same record).2 read
    | ok record =>
      rw [(same record).1 rfl]
      refine iff_of_false ?_ ?_
      · rintro ⟨e, after, impossible⟩
        cases impossible
      · rintro ⟨e, impossible⟩
        cases impossible

/-- A line about somebody who has no seat changes nothing, but that no seat line may
follow. -/
theorem answers_consume_of_unseated {context : HandContext} {draft : Draft} {raw player : Text}
    (reading : draft.inSummary = false)
    (told : (BodyLine.ofText draft.seatsOpen raw).actor? = some player)
    (unseated : player ∉ draft.seats.toList) :
    Answers (draft.consume context raw) (.ok draft.closed) := by
  have stands : ¬ draft.closed.isSeated player = true := fun seated =>
    unseated (Draft.mem_seats_of_isSeated seated)
  cases read : BodyLine.ofText draft.seatsOpen raw with
  | winner name line =>
    rw [read] at told
    cases told
    rw [Draft.consume_of_ofText reading read rfl, Draft.takeLine, Draft.takeWinner, if_neg stands]
    exact (answers_record _).bind (answers_pure _)
  | action kind name tail line =>
    rw [read] at told
    cases told
    rw [Draft.consume_of_ofText reading read rfl, Draft.takeLine, Draft.takeAction, if_neg stands]
    exact (answers_record _).bind (answers_pure _)
  | _ =>
    rw [read] at told
    cases told

/-- The next hand is not read just if its block has a fault, and a line about somebody
without a seat is left out. -/
theorem readHand_fails_iff_fault (room : Room) (session : Session)
    (ready : session.roster.site ≠ []) :
    ((∃ e after, (readHand room).runFrom session = (.error e, after)) ↔
      Fault room session.cursor.file
        ((blocks room.isHandStart session.cursor.rest).headD [])) ∧
    ∀ (context : HandContext) (draft : Draft) (raw player : Text), draft.inSummary = false →
      (BodyLine.ofText draft.seatsOpen raw).actor? = some player → player ∉ draft.seats.toList →
      Answers (draft.consume context raw) (.ok draft.closed) :=
  ⟨(runFrom_readHand_isError_iff ready).trans (readBlock_isError_iff room _ _),
    fun _ _ _ _ reading told unseated => answers_consume_of_unseated reading told unseated⟩

/-- A line that says that nobody folds costs the hand of ann, which is read without it. -/
theorem readHand_fails_for_nobody :
    let front : Text := "Winamax Poker - HandId: #1 - 2014/11/12 23:49:45\n" ++
      "Table: 'Nice' 5-max\nSeat 1: ann (5)\n"
    let roster : Roster := { site := Room.winamax.siteName }
    ((readHand .winamax).runFrom { cursor := .ofText [] (front ++ "ann folds"), roster }).1.isOk =
      true ∧
    ∃ e after, (readHand .winamax).runFrom
      { cursor := .ofText [] (front ++ ": folds\nann folds"), roster } = (.error e, after) := by
  intro front roster
  refine ⟨by decide +kernel, ?_⟩
  have ready : roster.site ≠ [] := Room.winamax.siteName_ne_nil
  rw [(readHand_fails_iff_fault .winamax _ ready).1]
  have block : (blocks Room.winamax.isHandStart (Cursor.rest (.ofText []
      (front ++ ": folds\nann folds")))).headD [] =
      ["Winamax Poker - HandId: #1 - 2014/11/12 23:49:45".toList, "Table: 'Nice' 5-max".toList,
        "Seat 1: ann (5)".toList, ": folds".toList, "ann folds".toList] := by decide +kernel
  rw [block]
  have told : BodyLine.action .fold [] [' '] ": folds" ∈ BodyLine.said true
      ["Seat 1: ann (5)".toList, ": folds".toList, "ann folds".toList] := by decide +kernel
  exact .nobody told rfl (by decide +kernel)

end History

end HandHistory
