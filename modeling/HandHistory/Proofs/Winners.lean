import HandHistory.Proofs.Faults

/-!
# Winners

The winners of a hand are told by its lines: they are the seated players to whom the
lines in front of the summary award a pot, each once, in the order of the first award.
The row of ten never runs out, however many side pots there are.

A draft looks up a winner among the seats of now, and what is told is compared with
the seats of the whole hand. Both are the same, since an award closes the seats. The
winners of a draft are a list, which stands for the row that the hand will have: a new
winner takes the first free place of it (`Draft.Sound.ofNames_addWinner`).
-/

namespace HandHistory

/-! ## The row of ten -/

namespace NameRow

variable {names : List Text}

/-- The first free place of a row. -/
def firstFree? (row : NameRow) : Option (Fin 10) :=
  (List.finRange 10).find? fun place => (row.get place).isEmpty

/-- The row with a name at its first free place, unless the name stands in the row already or
no place is free. -/
def receive (name : Text) (row : NameRow) : NameRow :=
  if row.toList.contains name then row else row.firstFree?.elim row (row.put name)

theorem isEmpty_get_ofNames (named : ∀ name ∈ names, name ≠ []) (place : Fin 10) :
    ((ofNames names).get place).isEmpty = decide (names.length ≤ place.val) := by
  rw [Bool.eq_iff_iff, List.isEmpty_iff, decide_eq_true_iff, ← Nat.not_lt,
    ← ofNames_ne_nil_iff named place, Decidable.not_not]
  rfl

/-- The first free place of a row of names is the one right behind them. -/
theorem firstFree?_ofNames (named : ∀ name ∈ names, name ≠ []) (room : names.length < 10) :
    (ofNames names).firstFree? = some ⟨names.length, room⟩ := by
  simp only [firstFree?, isEmpty_get_ofNames named]
  refine List.find?_eq_some_iff_getElem.2 ⟨by simp, names.length, by simpa using room, by simp, ?_⟩
  intro earlier before
  simpa using before

theorem firstFree?_ofNames_of_full (named : ∀ name ∈ names, name ≠ [])
    (full : 10 ≤ names.length) : (ofNames names).firstFree? = none := by
  simp only [firstFree?, isEmpty_get_ofNames named]
  exact List.find?_eq_none.2 fun place _ => by simpa using place.isLt.trans_le full

theorem ofNames_concat (name : Text) (room : names.length < 10) :
    ofNames (names ++ [name]) = (ofNames names).put name ⟨names.length, room⟩ := by
  apply Vector.ext
  intro i hi
  rw [getElem_put]
  simp only [ofNames, Vector.getElem_ofFn]
  rcases Nat.lt_trichotomy i names.length with before | rfl | behind
  · rw [if_neg before.ne', List.getElem?_append_left before]
  · simp
  · rw [if_neg behind.ne, List.getElem?_eq_none behind.le,
      List.getElem?_eq_none (by simpa using behind)]

theorem mem_ofNames {name : Text} (fits : names.length ≤ 10) (named : name ≠ []) :
    name ∈ (ofNames names).toList ↔ name ∈ names := by
  rw [toList_ofNames fits, List.mem_append, or_iff_left]
  exact fun free => named (List.eq_of_mem_replicate free)

end NameRow

/-! ## What the lines tell -/

namespace BodyLine

/-- The winners after a line, of the players in a row of names. -/
def award (row : NameRow) (winners : List Text) (line : BodyLine) : List Text :=
  line.winner?.elim winners fun name =>
    if name ∈ row.toList ∧ name ∉ winners then winners ++ [name] else winners

/-- The winners that the lines of a hand tell of. -/
def winners (lines : List BodyLine) : List Text :=
  ((lines.filterMap winner?).filter (seats lines).toList.contains).eraseDups

theorem foldl_award (row : NameRow) (lines : List BodyLine) :
    lines.foldl (award row) [] =
      ((lines.filterMap winner?).filter row.toList.contains).eraseDups := by
  induction lines using List.reverseRecOn with
  | nil => rfl
  | append_singleton lines line ih =>
    rw [List.foldl_concat, ih, List.filterMap_append]
    cases told : line.winner? with
    | none => simp [award, told]
    | some name =>
      have one : [line].filterMap winner? = [name] := by simp [told]
      rw [one, List.filter_append, award, told, Option.elim_some]
      by_cases seated : name ∈ row.toList
      · rw [List.filter_cons_of_pos (List.contains_iff_mem.2 seated), List.filter_nil,
          Written.eraseDups_concat]
        by_cases known : name ∈ ((lines.filterMap winner?).filter row.toList.contains).eraseDups
        · rw [if_pos known, if_neg fun new => new.2 known]
        · rw [if_neg known, if_pos ⟨seated, known⟩]
      · rw [if_neg fun new => seated new.1, List.filter_cons_of_neg (by simpa using seated),
          List.filter_nil, List.append_nil]

theorem actor?_of_winner? {line : BodyLine} {name : Text} (told : line.winner? = some name) :
    line.actor? = some name := by
  cases line with
  | winner player text => exact told
  | _ => cases told

/-- Whom a line awards a pot to can be told from the seats of the whole hand. -/
theorem award_foldl_sit (seatsOpen : Bool) (raw : Text) (lines : List Text) (row : NameRow)
    (winners : List Text) :
    award ((said (seatsOpen && (ofText seatsOpen raw).keepsSeatsOpen) lines).foldl sit
      (sit row (ofText seatsOpen raw))) winners (ofText seatsOpen raw) =
      award row winners (ofText seatsOpen raw) := by
  cases told : (ofText seatsOpen raw).winner? with
  | none => rw [award, award, told, Option.elim_none, Option.elim_none]
  | some name => rw [foldl_sit_of_actor? lines row (actor?_of_winner? told)]

end BodyLine

namespace Draft

open Reading

variable {context : HandContext} {draft after : Draft}

/-- The winners of a draft stand for the row that the hand will have: a new one takes the first
free place of it. -/
theorem Sound.ofNames_addWinner (sound : draft.Sound context) {name : Text} (named : name ≠ []) :
    NameRow.ofNames (draft.addWinner name).winners =
      (NameRow.ofNames draft.winners).receive name := by
  have known : (NameRow.ofNames draft.winners).toList.contains name =
      draft.winners.contains name := by
    rw [Bool.eq_iff_iff, List.contains_iff_mem, List.contains_iff_mem,
      NameRow.mem_ofNames sound.winnersFit named]
  rw [NameRow.receive, known, addWinner]
  cases draft.winners.contains name with
  | true => rfl
  | false =>
    by_cases full : winnerRoom ≤ draft.winners.length
    · rw [if_pos (by simp [full]), if_neg Bool.false_ne_true,
        NameRow.firstFree?_ofNames_of_full sound.winnersNamed full]
      rfl
    · have room : draft.winners.length < 10 := Nat.lt_of_not_le full
      rw [if_neg (by simp [full]), if_neg Bool.false_ne_true,
        NameRow.firstFree?_ofNames sound.winnersNamed room]
      exact NameRow.ofNames_concat name room

/-- The step: there is always room for a winner who has not won yet. -/
theorem Takes.award {line : BodyLine} (takes : Takes line draft after)
    (sound : draft.Sound context) : after.winners = line.award draft.seats draft.winners := by
  rw [takes.winners, BodyLine.award]
  cases line.winner? with
  | none => rfl
  | some name =>
    rw [Option.elim_some, Option.elim_some]
    by_cases seated : name ∈ draft.seats.toList
    · rw [if_pos (isSeated_of_mem seated), sound.addWinner_eq seated]
      by_cases known : name ∈ draft.winners <;> simp [known, seated]
    · rw [if_neg fun stands => seated (mem_seats_of_isSeated stands), if_neg fun new => seated new.1]

end Draft

namespace History

open Reading

variable {room : Room} {context : HandContext} {draft after : Draft}

/-- The run: the winners of a body are those that its lines tell of. -/
theorem draftOf_foldl_award (ofHand : context.handId ≠ []) (reading : draft.inSummary = false)
    (body : draft.InBody context) {lines : List Text}
    (read : draftOf context lines draft = .ok after) :
    after.winners =
      (BodyLine.said draft.seatsOpen lines).foldl (BodyLine.award after.seats) draft.winners := by
  induction lines generalizing draft with
  | nil =>
    cases read
    rfl
  | cons raw lines ih =>
    by_cases summary : BodyLine.ofText draft.seatsOpen raw = .summary
    · rw [draftOf_of_summary reading summary] at read
      rw [BodyLine.said_of_summary summary]
      cases read
      rfl
    · have seats := (draftOf_eq_ok ofHand reading read).1
      rw [BodyLine.said_cons summary, List.foldl_cons] at seats ⊢
      rcases Draft.decides_consume ofHand reading summary with
        ⟨-, e, failed⟩ | ⟨-, next, taken, takes⟩
      · rw [draftOf, failed.answer_eq] at read
        cases read
      · rw [draftOf_cons taken] at read
        have kept : next.InBody context :=
          (Draft.yields_consume raw body).of_answer taken.answer_eq
        have closing : Draft.InBody context { draft with
            seatsOpen := draft.seatsOpen && (BodyLine.ofText draft.seatsOpen raw).keepsSeatsOpen } :=
          body.congr rfl rfl rfl fun both => (Bool.and_eq_true_iff.1 both).1
        rw [ih (takes.reading.trans reading) kept read, takes.seatsOpen,
          takes.award closing.toSound, seats, BodyLine.award_foldl_sit]

/-- The winners of a body, and that each of them finds room in the row of ten. -/
theorem draftOf_winners (ofHand : context.handId ≠ []) {lines : List Text}
    (read : draftOf context lines {} = .ok draft) :
    draft.winners = BodyLine.winners (BodyLine.said true lines) ∧
      ∀ name ∈ draft.seats.toList, name ∉ draft.winners →
        (draft.addWinner name).winners = draft.winners ++ [name] := by
  have nobody := Draft.inBody_seats context .free
  have sound := (inBody_draftOf nobody read).toSound
  refine ⟨?_, fun name seated new => ?_⟩
  · rw [draftOf_foldl_award ofHand rfl nobody read, (draftOf_eq_ok ofHand rfl read).1]
    exact BodyLine.foldl_award _ _
  · rw [sound.addWinner_eq seated]
    exact if_neg new

/-- A hand has the seats and the winners of the draft that its body leaves. -/
theorem winners_bodyHand {file : Text} {header : Header} {table : TableLine} {body : List Text}
    {record : HandRecord} (ofHand : header.handId ≠ [])
    (made : bodyHand room file header table body = .ok record) :
    ∃ draft, draftOf (contextOf room file header) body {} = .ok draft ∧
      record.hand.seats = draft.seats ∧ record.hand.winners = .ofNames draft.winners := by
  obtain ⟨draft, read, made⟩ := exists_of_bind_eq_ok made
  obtain ⟨last, silent, made⟩ := exists_of_bind_eq_ok made
  obtain ⟨hand, created, made⟩ := exists_of_bind_eq_ok made
  cases made
  have sound := (inBody_draftOf (Draft.inBody_seats _ .free) read).toSound
  obtain ⟨street, actions, answered⟩ := @Draft.answers_silent (contextOf room file header) draft
    ofHand draft.silentWinners fun name hname =>
      sound.winnersNamed name (List.mem_filter.1 hname).1
  have same : last = { draft with street, actions } :=
    Except.ok.inj (silent.symm.trans answered.answer_eq)
  refine ⟨draft, read, ?_⟩
  cases result : (assemble room header table last).create with
  | error e =>
    rw [result] at created
    cases created
  | ok made =>
    rw [result] at created
    cases created
    rw [(Hand.create_eq_ok result).1, same]
    exact ⟨rfl, rfl⟩

/-- The winners of a hand are the seated players to whom its lines award a pot, each
once, in the order of the first award. Wherever a body has been read to, the next of
them finds room. -/
theorem readHand_winners (room : Room) (session : Session) (ready : session.roster.site ≠ []) :
    (∀ record after, (readHand room).runFrom session = (.ok record, after) →
      ∃ header line body, (blocks room.isHandStart session.cursor.rest).head? =
          some (header :: line :: body) ∧
        record.hand.winnerNames = BodyLine.winners (BodyLine.said true body) ∧
        record.hand.winners = .ofNames (BodyLine.winners (BodyLine.said true body)) ∧
        record.hand.seats = BodyLine.seats (BodyLine.said true body)) ∧
    ∀ (context : HandContext) (lines : List Text) (draft : Draft), context.handId ≠ [] →
      draftOf context lines {} = .ok draft →
        draft.winners = BodyLine.winners (BodyLine.said true lines) ∧
          ∀ name ∈ draft.seats.toList, name ∉ draft.winners →
            (draft.addWinner name).winners = draft.winners ++ [name] := by
  refine ⟨fun record after run => ?_, fun context lines draft ofHand read =>
    draftOf_winners ofHand read⟩
  obtain ⟨block, first, accepted⟩ := readBlock_of_runFrom_readHand ready run
  obtain ⟨header, line, body, logged, table, rfl, head, -, made⟩ := readBlock_eq_ok accepted
  have ofHand := Room.handId_ne_nil head
  obtain ⟨draft, read, seats, winners⟩ := winners_bodyHand ofHand made
  have sound := (inBody_draftOf (Draft.inBody_seats _ .free) read).toSound
  have told := (draftOf_winners ofHand read).1
  refine ⟨header, line, body, first, ?_, told ▸ winners,
    seats.trans (draftOf_eq_ok ofHand rfl read).1⟩
  rw [Hand.winnerNames, winners, ← told]
  exact NameRow.taken_ofNames sound.winnersFit sound.winnersNamed

/-- Ann and bob win a main pot and two side pots, and eve, who has no seat, wins none. -/
theorem readHand_winners_side_pots :
    let text : Text := "Winamax Poker - HandId: #1 - 2014/11/12 23:49:45\n" ++
      "Table: 'Nice' 5-max\nSeat 1: ann (5)\nSeat 2: bob (5)\nbob collected 3 from main pot\n" ++
      "ann wins 2\neve collected 1 from side pot\nbob collected 1 from side pot\n"
    let session : Session :=
      { cursor := .ofText [] text, roster := { site := Room.winamax.siteName } }
    ∃ record after, (readHand .winamax).runFrom session = (.ok record, after) ∧
      record.hand.winnerNames = ["bob".toList, "ann".toList] ∧
      ∃ header line body, (blocks Room.winamax.isHandStart session.cursor.rest).head? =
          some (header :: line :: body) ∧
        record.hand.winnerNames = BodyLine.winners (BodyLine.said true body) := by
  intro text session
  have ready : session.roster.site ≠ [] := Room.winamax.siteName_ne_nil
  have names : ((readHand .winamax).runFrom session).1.map
      (fun record => record.hand.winnerNames) = .ok ["bob".toList, "ann".toList] := by
    decide +kernel
  rcases run : (readHand .winamax).runFrom session with ⟨answer, after⟩
  rw [run] at names
  obtain ⟨record, rfl, won⟩ := exists_of_map_eq_ok names
  obtain ⟨header, line, body, first, told, -⟩ :=
    (readHand_winners .winamax session ready).1 record after run
  exact ⟨record, after, rfl, won, header, line, body, first, told⟩

end History

end HandHistory
