import HandHistory.Proofs.Said

/-!
# Reading back written hands

A written hand is read back as it is written, but for one name. `Follows` says that a
draft tells what the lines so far say; it holds behind the seats, every line keeps it
up, and so it holds behind the last line, from which the hand is made.

The exception is a deal to a player called `posts`. Its line is taken for the
posting of a blind, and the cards of the hero stay unknown.
-/

namespace HandHistory

open Written Reading

/-! ## Along the lines -/

namespace History

variable {context : HandContext} {draft : Draft}

/-- Behind the marker of the summary, no line says anything. -/
theorem draftOf_summary (reading : draft.inSummary = false) (lines : List Text) :
    draftOf context (summaryText :: lines) draft = .ok { draft with inSummary := true } :=
  draftOf_of_summary reading (ofText_summary _) lines

end History

namespace Written

/-- A draft that tells what the lines of a hand say, as far as they are read. -/
structure Follows (handId : Text) (seats : NameRow) (lines : List Line) (draft : Draft) :
    Prop where
  seats_eq : draft.seats = seats
  street_eq : draft.currentStreet = streetAfter lines
  ante_eq : draft.ante = lastOf Line.ante? 0 lines
  heroCards_eq : draft.heroCards = .ofCards (lastOf Line.read? [] lines)
  board_eq : draft.board = boardRow lines
  actions_eq : draft.actions = number handId (moves .preflop lines)
  winners_eq : draft.winners = winnersOf lines

variable {context : HandContext} {handId : Text} {seats : NameRow} {lines : List Line}
  {draft after : Draft}

theorem number_append_toList (moves : List Move) (move? : Option Move) :
    number handId (moves ++ move?.toList) =
      number handId moves ++ move?.toList.map (Move.action handId moves.length) := by
  cases move? with
  | none => simp [number]
  | some move => simp [number]

theorem length_number (moves : List Move) : (number handId moves).length = moves.length := by
  simp [number]

theorem Follows.concat (follows : Follows handId seats lines draft) {line : Line}
    (changes : line.Changes handId draft after) : Follows handId seats (lines ++ [line]) after where
  seats_eq := changes.seats.trans follows.seats_eq
  street_eq := by rw [changes.street, follows.street_eq, streetAfter, streetAfter, lastOf_concat]
  ante_eq := by rw [changes.ante, follows.ante_eq, lastOf_concat]
  heroCards_eq := by
    rw [changes.heroCards, follows.heroCards_eq, lastOf_concat]
    cases line.read? <;> rfl
  board_eq := by
    rw [changes.board, follows.board_eq, boardRow_concat]
    cases line <;> rfl
  actions_eq := by
    rw [changes.actions, follows.actions_eq, follows.street_eq, length_number, moves_concat,
      number_append_toList, streetAfter]
  winners_eq := by rw [changes.winners, follows.winners_eq, winnersOf_concat]

/-- The run: lines about players at the table are read, and the draft says what
they say. -/
theorem Follows.draftOf (follows : Follows context.handId seats lines draft)
    (body : draft.InBody context) (reading : draft.inSummary = false)
    (ofHand : context.handId ≠ []) (delimiter : context.cardDelimiter = " ".toList)
    {others : List Line} (sit : ∀ line ∈ others, ∀ name ∈ line.name?, name.text ∈ seats.toList) :
    ∃ after, History.draftOf context (others.map Line.text) draft = .ok after ∧
      after.InBody context ∧ after.inSummary = false ∧
      Follows context.handId seats (lines ++ others) after := by
  induction others generalizing lines draft with
  | nil => exact ⟨draft, rfl, body, reading, by rwa [List.append_nil]⟩
  | cons line others ih =>
    have sits : ∀ name ∈ line.name?, name.text ∈ draft.seats.toList := by
      rw [follows.seats_eq]
      exact sit line List.mem_cons_self
    obtain ⟨next, read, changes⟩ :=
      line.answers_consume body.toSound reading ofHand delimiter sits
    have stillBody : next.InBody context := by
      obtain ⟨roster, events, run, -⟩ := read blankSession (by simp [blankSession])
      exact Draft.yields_consume line.text body _ _ _ run
    obtain ⟨after, rest, bodyAfter, readingAfter, followsAfter⟩ :=
      ih (follows.concat changes) stillBody (changes.reading.trans reading)
        fun other hother => sit other (List.mem_cons_of_mem line hother)
    refine ⟨after, ?_, bodyAfter, readingAfter, ?_⟩
    · rw [List.map_cons, History.draftOf_cons read, rest]
    · rwa [List.append_assoc, List.singleton_append] at followsAfter

/-- Nothing is said in front of the first line. -/
theorem follows_seats (handId : Text) (seats : NameRow) :
    Follows handId seats [] { seats } where
  seats_eq := rfl
  street_eq := rfl
  ante_eq := rfl
  heroCards_eq := rfl
  board_eq := rfl
  actions_eq := rfl
  winners_eq := rfl

/-- A seat line is read, and its player sits down. -/
theorem Seated.answers_consume (one : Seated) (seats : NameRow) :
    Answers (Draft.consume context one.text { seats })
      (.ok { seats := seats.put one.name.text one.place }) := by
  have named : one.name.text.isEmpty = false := by simp [one.name.named]
  have read : BodyLine.ofText true one.text =
      .seat (placeText one.place) one.name.text one.text :=
    ofText_seat one.place one.name one.chips
  rw [Draft.consume, if_neg Bool.false_ne_true, read]
  show Answers (Draft.takeSeat context (placeText one.place) one.name.text one.text { seats }) _
  rw [Draft.takeSeat, ofNumberText_placeText]
  dsimp only [Seat.index?]
  rw [named, if_neg (by decide)]
  exact (answers_enrol context.file one.name.named).bind (answers_pure _)

theorem draftOf_seats (seated others : List Seated)
    (differ : ((seated ++ others).map Seated.place).Nodup) :
    History.draftOf context (others.map Seated.text) { seats := seatRow seated } =
      .ok { seats := seatRow (seated ++ others) } := by
  induction others generalizing seated with
  | nil => rw [List.append_nil]; rfl
  | cons one others ih =>
    have free : one.place ∉ seated.map Seated.place := by
      intro taken
      rw [List.map_append, List.map_cons] at differ
      exact (List.nodup_append.1 differ).2.2 _ taken _ List.mem_cons_self rfl
    have step := ih (seated ++ [one]) (by rwa [List.append_assoc, List.singleton_append])
    rw [List.append_assoc, List.singleton_append, seatRow_concat free] at step
    rw [List.map_cons, History.draftOf_cons (one.answers_consume (seatRow seated)), step]

/-! ## Silent winners -/

theorem player_number (moves : List Move) :
    (number handId moves).map Action.player = moves.map Move.player := by
  apply List.ext_getElem?
  intro i
  rw [List.getElem?_map, List.getElem?_map, number, List.getElem?_mapIdx, Option.map_map]
  rfl

/-- Names are given one silent move each, on the street of now. -/
theorem answers_addSilent {street : Street} (on : draft.currentStreet = street)
    (ofHand : context.handId ≠ []) {names : List Text} (named : ∀ name ∈ names, name ≠ [])
    {moves : List Move} (numbered : draft.actions = number context.handId moves) :
    ∃ last, Answers
      (names.foldlM (fun draft name => draft.addAction context .silent name 0) draft)
      (.ok { draft with
        street := last
        actions := number context.handId (moves ++ names.map (silentMove street)) }) := by
  induction names generalizing draft moves with
  | nil =>
    refine ⟨draft.street, ?_⟩
    rw [List.map_nil, List.append_nil, ← numbered]
    exact answers_pure draft
  | cons name names ih =>
    have acts := @Draft.answers_addAction context draft .silent name 0 ofHand
      (named name List.mem_cons_self) Amount.not_zero_lt_zero
    rw [on] at acts
    have stillOn : (draft.acted context.handId (silentMove street name)).currentStreet = street :=
      (Draft.currentStreet_of_street on.symm).trans on
    have more : (draft.acted context.handId (silentMove street name)).actions =
        number context.handId (moves ++ [silentMove street name]) := by
      have one := @number_append_toList context.handId moves (some (silentMove street name))
      rw [Draft.acted, numbered, length_number]
      exact one.symm
    obtain ⟨last, rest⟩ :=
      ih stillOn (fun other hother => named other (List.mem_cons_of_mem name hother)) more
    refine ⟨last, ?_⟩
    rw [List.foldlM_cons]
    refine acts.bind ?_
    rwa [List.append_assoc, List.singleton_append] at rest

/-- Behind the lines, the silent winners of the draft are those of the lines. -/
theorem Follows.silentWinners (follows : Follows handId seats lines draft) :
    draft.silentWinners.map (silentMove draft.currentStreet) = silentMoves lines := by
  have acts : ∀ name, (draft.actions.any fun action => action.player == name) =
      (moves .preflop lines).any fun move => move.player == name := by
    intro name
    have players := congrArg (List.any · (· == name)) (@player_number handId (moves .preflop lines))
    rw [List.any_map, List.any_map] at players
    rw [follows.actions_eq]
    exact players
  rw [Draft.silentWinners, follows.winners_eq, follows.street_eq, silentMoves]
  simp only [acts]

end Written

/-! ## The hand -/

theorem CardRow.ofCards_ne_free {cards : List Card} (something : cards ≠ []) :
    CardRow.ofCards cards ≠ .ofCards [] := by
  obtain ⟨card, cards, rfl⟩ := List.exists_cons_of_ne_nil something
  intro same
  have first := congrArg (fun row : CardRow => row[0]) same
  simp [CardRow.ofCards, CardRow.ofSlots] at first

namespace Written.Line

theorem isHandStart_text (room : Room) (line : Line) : room.isHandStart line.text = false := by
  cases line with
  | blind name chips =>
    rw [text, blindText, ← Name.lead_false]
    exact isHandStart_led (by decide) room
  | ante name chips =>
    rw [text, anteText, ← Name.lead_false]
    exact isHandStart_led (by decide) room
  | dealt name cards few => exact isHandStart_dealt room
  | preflop holeCards => exact isHandStart_preflop room holeCards
  | board shown => exact shown.isHandStart_text room
  | deed name colon done => exact isHandStart_led done.verb_mem room
  | collected name chips =>
    rw [text, collectedText, ← Name.lead_false]
    exact isHandStart_led (by decide) room
  | wins name chips =>
    rw [text, winsText, ← Name.lead_false]
    exact isHandStart_led (by decide) room

theorem read?_of_cards? (line : Line) (silent : line.cards? = none) : line.read? = none := by
  cases line with
  | dealt => cases silent
  | _ => rfl

/-- The ante of some lines is not negative. -/
theorem not_ante_lt_zero (lines : List Line) : ¬ lastOf Line.ante? 0 lines < 0 := by
  induction lines using List.reverseRecOn with
  | nil => exact Amount.not_zero_lt_zero
  | append_singleton lines line ih =>
    rw [lastOf_concat]
    cases line with
    | ante name chips => exact Decimal.not_toFloat_lt_zero _
    | _ => exact ih

end Written.Line

namespace WrittenHand

variable {room : Room} (written : WrittenHand room)

theorem isHandStart_texts : ∀ text ∈ written.texts, room.isHandStart text = false := by
  intro text inside
  rcases List.mem_append.1 inside with inside | inside
  · obtain ⟨one, -, rfl⟩ := List.mem_map.1 inside
    exact isHandStart_seat one.place one.name one.chips room
  · rcases List.mem_append.1 inside with inside | inside
    · obtain ⟨line, -, rfl⟩ := List.mem_map.1 inside
      exact line.isHandStart_text room
    · cases summary : written.summary? with
      | none => simp [summary] at inside
      | some texts =>
        rw [summary, Option.elim_some] at inside
        rcases List.mem_cons.1 inside with rfl | inside
        · exact isHandStart_summary room
        · exact written.summary_inside texts summary text inside

/-- The hand that is read of the lines. -/
def handRead (header : Header) (table : TableLine) : Hand :=
  { written.hand header table with heroCards := .ofCards (lastOf Line.read? [] written.lines) }

theorem lastOf_read? (spared : ¬ written.DealsToPosts) :
    lastOf Line.read? [] written.lines = lastOf Line.cards? [] written.lines := by
  by_cases deal : ∃ line ∈ written.lines, line.cards? ≠ none
  · obtain ⟨line, inside, deals⟩ := deal
    rw [lastOf_of_dealt written.dealt_once inside deals Line.read?_of_cards?,
      lastOf_of_dealt written.dealt_once inside deals fun _ silent => silent]
    cases line with
    | dealt name cards few =>
      by_cases posts : name.text = "posts".toList
      · have nothing : cards = [] := by
          by_contra something
          exact spared ⟨name, cards, few, inside, posts, something⟩
        rw [Line.read?, if_pos posts]
        exact nothing.symm
      · rw [Line.read?, if_neg posts]
        rfl
    | _ => exact absurd rfl deals
  · push Not at deal
    have noCards : written.lines.filterMap Line.cards? = [] := List.filterMap_eq_nil_iff.2 deal
    have noRead : written.lines.filterMap Line.read? = [] :=
      List.filterMap_eq_nil_iff.2 fun line inside => line.read?_of_cards? (deal line inside)
    rw [lastOf, lastOf, noCards, noRead]

theorem lastOf_of_dealsToPosts (posts : written.DealsToPosts) :
    lastOf Line.read? [] written.lines = [] ∧ lastOf Line.cards? [] written.lines ≠ [] := by
  obtain ⟨name, cards, few, inside, called, something⟩ := posts
  have deals : (Line.dealt name cards few).cards? ≠ none := by simp [Line.cards?]
  rw [lastOf_of_dealt written.dealt_once inside deals Line.read?_of_cards?,
    lastOf_of_dealt written.dealt_once inside deals fun _ silent => silent]
  refine ⟨?_, something⟩
  rw [Line.read?, if_pos called]
  rfl

/-- The lines are read, and the draft behind them says what they say. -/
theorem draftOf_texts {context : HandContext} (ofHand : context.handId ≠ [])
    (delimiter : context.cardDelimiter = " ".toList) :
    ∃ draft, History.draftOf context written.texts {} = .ok draft ∧ draft.Sound context ∧
      Follows context.handId (seatRow written.seated) written.lines draft := by
  have seats := @draftOf_seats context [] written.seated written.places_nodup
  have sit : ∀ line ∈ written.lines, ∀ name ∈ line.name?,
      name.text ∈ (seatRow written.seated).toList := by
    intro line hline name hname
    obtain ⟨one, sits, same⟩ := written.about_seated line hline name hname
    exact same ▸ mem_seatRow written.places_nodup sits
  obtain ⟨draft, lines, body, reading, follows⟩ :=
    (follows_seats context.handId (seatRow written.seated)).draftOf
      (Draft.inBody_seats context _) rfl ofHand delimiter sit
  have read : History.draftOf context written.texts {} =
      History.draftOf context (written.summary?.elim [] (summaryText :: ·)) draft := by
    rw [texts, History.draftOf_append]
    refine (congrArg (Except.bind · _) seats).trans ?_
    rw [Except.bind, History.draftOf_append]
    exact congrArg (Except.bind · _) lines
  rw [read]
  cases written.summary? with
  | none => exact ⟨draft, rfl, body.toSound, follows⟩
  | some others =>
    have closed : Draft.InBody context { draft with inSummary := true } :=
      body.congr rfl rfl rfl id
    exact ⟨_, History.draftOf_summary reading others, closed.toSound, { follows with }⟩

theorem bodyHand_texts {file : Text} {header : Header} {table : TableLine}
    (ofHand : header.handId ≠ []) (atTable : table.table ≠ []) :
    History.bodyHand room file header table written.texts =
      .ok { header, table, hand := written.handRead header table } := by
  have delimiter : (History.contextOf room file header).cardDelimiter = " ".toList := by
    cases room <;> rfl
  obtain ⟨draft, read, sound, follows⟩ :=
    @draftOf_texts room written (History.contextOf room file header) ofHand delimiter
  have named : ∀ name ∈ draft.silentWinners, name ≠ [] := fun name silent =>
    sound.winnersNamed name (List.mem_filter.1 silent).1
  obtain ⟨last, silent⟩ := answers_addSilent rfl ofHand named follows.actions_eq
  rw [follows.silentWinners] at silent
  have silentRead : (draft.addSilentWinners (History.contextOf room file header)).answer =
      .ok { draft with
        street := last
        actions :=
          number header.handId (moves .preflop written.lines ++ silentMoves written.lines) } :=
    silent.answer_eq
  have hand : History.assemble room header table { draft with
      street := last
      actions :=
        number header.handId (moves .preflop written.lines ++ silentMoves written.lines) } =
      written.handRead header table := by
    simp only [History.assemble, WrittenHand.hand, handRead, follows.ante_eq,
      follows.heroCards_eq, follows.board_eq, follows.seats_eq, follows.winners_eq]
  obtain ⟨one, sits⟩ := List.exists_mem_of_ne_nil _ written.occupied
  have created : (written.handRead header table).create = .ok (written.handRead header table) :=
    Hand.create_of_rules ofHand room.siteName_ne_nil atTable (Line.not_ante_lt_zero written.lines)
      ⟨one.name.text, mem_seatRow written.places_nodup sits, one.name.named⟩
  simp only [History.bodyHand, read, silentRead, bind, Except.bind, hand, created]
  rfl

end WrittenHand

namespace History

variable {room : Room} {session : Session}

/-- A written hand behind a header and a table line that are accepted is read, wherever
in a file it stands. What is read is what is written, unless cards are dealt to a player
called `posts`; then the hand has no cards of the hero, and nothing else differs. -/
theorem readHand_eq_written (ready : session.roster.site ≠ []) (written : WrittenHand room)
    {header line : Text} {others : List Text} {logged : Logged Header} {table : TableLine}
    (ahead : (session.cursor.rest.dropWhile fun line => !room.isHandStart line) =
      header :: line :: (written.texts ++ others))
    (ends : ∀ next ∈ others.head?, room.isHandStart next = true)
    (accepted : room.readHeader session.cursor.file header = .ok logged)
    (tableAccepted : room.readTableLine session.cursor.file line = .ok table)
    (atTable : table.table ≠ []) :
    ∃ record after, (readHand room).runFrom session = (.ok record, after) ∧
      record.header = logged.value ∧ record.table = table ∧
      (record.hand = written.hand logged.value table ↔ ¬ written.DealsToPosts) ∧
      (written.DealsToPosts →
        record.hand = { written.hand logged.value table with heroCards := .free }) := by
  have inside : room.isHandStart line = false := by
    rw [← Bool.not_eq_true]
    intro start
    obtain ⟨e, refused⟩ := @readTableLine_of_isHandStart room session.cursor.file line start
    rw [refused] at tableAccepted
    cases tableAccepted
  have block : (line :: (written.texts ++ others)).takeWhile (fun line => !room.isHandStart line) =
      line :: written.texts := by
    have body : ∀ text ∈ line :: written.texts, (!room.isHandStart text) = true := by
      intro text htext
      rcases List.mem_cons.1 htext with rfl | htext
      · simp [inside]
      · simp [written.isHandStart_texts text htext]
    have stop : others.takeWhile (fun line => !room.isHandStart line) = [] := by
      cases others with
      | nil => rfl
      | cons next others => simp [ends next rfl]
    rw [← List.cons_append, List.takeWhile_append_of_pos body, stop, List.append_nil]
  obtain ⟨result, after, run, same, -⟩ := runFrom_readHand ready ahead
  have read : readBlock room session.cursor.file (header :: line :: written.texts) =
      .ok { header := logged.value, table, hand := written.handRead logged.value table } := by
    rw [readBlock_cons_cons accepted, tableAccepted]
    exact written.bodyHand_texts (Room.handId_ne_nil accepted) atTable
  rw [block] at same
  have done := (same _).2 read
  refine ⟨_, after, by rw [run, done], rfl, rfl, ⟨?_, ?_⟩, ?_⟩
  · rintro equal posts
    obtain ⟨nothing, something⟩ := written.lastOf_of_dealsToPosts posts
    have cards : CardRow.ofCards (lastOf Line.read? [] written.lines) =
        .ofCards (lastOf Line.cards? [] written.lines) := congrArg Hand.heroCards equal
    rw [nothing] at cards
    exact CardRow.ofCards_ne_free something cards.symm
  · intro spared
    dsimp only [WrittenHand.handRead]
    rw [written.lastOf_read? spared]
    rfl
  · intro posts
    dsimp only [WrittenHand.handRead]
    rw [(written.lastOf_of_dealsToPosts posts).1]
    rfl

/-- The hand of a player called `posts`, who is dealt two cards. -/
def handOfPosts : WrittenHand .winamax :=
  let posts : Name :=
    { text := "posts".toList
      named := by decide
      alphanumeric := List.all_eq_true.1 (by decide)
      ne_seat := by decide }
  let chips : Chips :=
    { before := .none, whole := ['5'], comma := false, fraction := [], after := .none
      whole_ne_nil := by decide
      whole_digits := List.all_eq_true.1 (by decide)
      fraction_digits := List.all_eq_true.1 (by decide) }
  { seated := [{ place := 0, name := posts, chips }]
    lines := [.dealt posts [⟨.ace, .hearts⟩, ⟨.king, .diamonds⟩] (by decide)]
    summary? := none
    occupied := List.cons_ne_nil _ _
    places_nodup := by decide
    about_seated := by simp [Line.name?]
    dealt_once := by decide
    summary_inside := by simp }

/-- The hand of `posts` is read, and is not as it is written. -/
theorem readHand_eq_written_posts :
    let session : Session :=
      { cursor := .ofText [] ("Winamax Poker - HandId: #1 - 2014/11/12 23:49:45\n" ++
          "Table: 'Nice' 5-max\nSeat 1: posts (5)\nDealt to posts [Ah Kd]\n")
        roster := { site := Room.winamax.siteName } }
    ∃ record after, (readHand .winamax).runFrom session = (.ok record, after) ∧
      record.hand ≠ handOfPosts.hand record.header record.table ∧
      record.hand.heroCards = .free := by
  intro session
  have deals : handOfPosts.DealsToPosts :=
    ⟨_, _, _, List.mem_cons_self, rfl, List.cons_ne_nil _ _⟩
  have ready : session.roster.site ≠ [] := Room.winamax.siteName_ne_nil
  have ahead : (session.cursor.rest.dropWhile fun line => !Room.winamax.isHandStart line) =
      "Winamax Poker - HandId: #1 - 2014/11/12 23:49:45".toList ::
        "Table: 'Nice' 5-max".toList :: (handOfPosts.texts ++ []) := by decide +kernel
  have tableAccepted : Room.winamax.readTableLine session.cursor.file "Table: 'Nice' 5-max" =
      .ok { table := "Nice", maxSeats := 5, button := .unknown, isRealMoney? := none } := rfl
  have isOk : (Room.winamax.readHeader session.cursor.file
      "Winamax Poker - HandId: #1 - 2014/11/12 23:49:45").isOk = true := by decide +kernel
  cases accepted : Room.winamax.readHeader session.cursor.file
      "Winamax Poker - HandId: #1 - 2014/11/12 23:49:45" with
  | error e =>
    rw [accepted] at isOk
    cases isOk
  | ok logged =>
    obtain ⟨record, after, run, header, table, same, free⟩ :=
      readHand_eq_written ready handOfPosts ahead (by simp) accepted tableAccepted (by decide)
    refine ⟨record, after, run, ?_, ?_⟩
    · rw [header, table]
      intro equal
      exact same.1 equal deals
    · rw [free deals]

end History

end HandHistory
