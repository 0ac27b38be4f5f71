import HandHistory.Proofs.Blocks
import HandHistory.Proofs.WrittenSteps

/-!
# What a body says

`BodyLine.said` is what the lines of a body say, each told apart by its own text and
by whether the lines before it leave the seats open. It ends where the summary begins.

The step is `Draft.decides_takeLine`, which says once what a line can do. A line ends the
reading just if it is `Faulty`: it deals something that is no card, or it tells of an
action or an award of nobody while a place is free. Every other line is taken, and
gives a place away as `BodyLine.sit` says. The run is `History.draftOf_said`.
-/

namespace HandHistory

/-! ## Readings that fail for one reason -/

namespace Reading

variable {α β : Type}

/-- The reading fails if there is a fault, and has an answer with a property if
there is none. -/
def Decides (x : Reading α) (fault : Prop) (post : α → Prop) : Prop :=
  (fault ∧ ∃ e, Answers x (.error e)) ∨ (¬ fault ∧ ∃ a, Answers x (.ok a) ∧ post a)

theorem Answers.decides {x : Reading α} {a : α} {fault : Prop} {post : α → Prop}
    (hx : Answers x (.ok a)) (sound : ¬ fault) (h : post a) : Decides x fault post :=
  Or.inr ⟨sound, a, hx, h⟩

theorem Decides.bind {x : Reading α} {f : α → Reading β} {fault : Prop} {mid : α → Prop}
    {post : β → Prop} (hx : Decides x fault mid)
    (hf : ∀ a, mid a → ∃ b, Answers (f a) (.ok b) ∧ post b) : Decides (x >>= f) fault post := by
  rcases hx with ⟨wrong, e, failed⟩ | ⟨right, a, answered, h⟩
  · exact Or.inl ⟨wrong, e, failed.bind_error f⟩
  · obtain ⟨b, next, hb⟩ := hf a h
    exact Or.inr ⟨right, b, answered.bind next, hb⟩

theorem Answers.bind_decides {x : Reading α} {f : α → Reading β} {a : α} {fault : Prop}
    {post : β → Prop} (hx : Answers x (.ok a)) (hf : Decides (f a) fault post) :
    Decides (x >>= f) fault post := by
  rcases hf with ⟨wrong, e, failed⟩ | ⟨right, b, next, h⟩
  · exact Or.inl ⟨wrong, e, hx.bind failed⟩
  · exact Or.inr ⟨right, b, hx.bind next, h⟩

end Reading

/-! ## Cards -/

namespace CardRow

/-- One of the first five tokens of a bracket group is no card. -/
def IsFlawed (delimiter group : Text) : Prop :=
  ∃ token ∈ (groupTokens delimiter group).take 5, ∀ card : Card, token ≠ card.token

theorem mapM_ofToken_isError_iff (tokens : List Text) :
    (∃ e, tokens.mapM Card.ofToken = .error e) ↔
      ∃ token ∈ tokens, ∀ card : Card, token ≠ card.token := by
  induction tokens with
  | nil => simp [pure, Except.pure]
  | cons token tokens ih =>
    rw [List.mapM_cons, List.exists_mem_cons_iff, ← ih]
    cases read : Card.ofToken token with
    | error e =>
      have stranger : ∀ card : Card, token ≠ card.token := by
        rintro card rfl
        rw [Card.ofToken_eq_ok_iff.2 rfl] at read
        cases read
      exact iff_of_true ⟨e, rfl⟩ (Or.inl stranger)
    | ok card =>
      have known : ¬ ∀ card : Card, token ≠ card.token := fun stranger =>
        stranger card (Card.ofToken_eq_ok_iff.1 read)
      rw [or_iff_right known]
      cases tokens.mapM Card.ofToken with
      | error e => exact iff_of_true ⟨e, rfl⟩ ⟨e, rfl⟩
      | ok cards =>
        refine iff_of_false ?_ ?_ <;> rintro ⟨e, impossible⟩ <;> cases impossible

theorem ofGroup_isError_iff (delimiter group : Text) :
    (∃ e, ofGroup delimiter group = .error e) ↔ IsFlawed delimiter group := by
  rw [IsFlawed, ← mapM_ofToken_isError_iff, ofGroup]
  cases ((groupTokens delimiter group).take 5).mapM Card.ofToken with
  | error e => exact iff_of_true ⟨e, rfl⟩ ⟨e, rfl⟩
  | ok cards => refine iff_of_false ?_ ?_ <;> rintro ⟨e, impossible⟩ <;> cases impossible

end CardRow

/-! ## Lines -/

namespace BodyLine

/-- What the lines of a body say, up to its summary. -/
def said : (seatsOpen : Bool) → List Text → List BodyLine
  | _, [] => []
  | seatsOpen, raw :: lines =>
    match ofText seatsOpen raw with
    | .summary => []
    | line => line :: said (seatsOpen && line.keepsSeatsOpen) lines

theorem said_of_summary {seatsOpen : Bool} {raw : Text} (begins : ofText seatsOpen raw = .summary)
    (lines : List Text) : said seatsOpen (raw :: lines) = [] := by
  rw [said, begins]

theorem said_cons {seatsOpen : Bool} {raw : Text} (inside : ofText seatsOpen raw ≠ .summary)
    (lines : List Text) :
    said seatsOpen (raw :: lines) = ofText seatsOpen raw ::
      said (seatsOpen && (ofText seatsOpen raw).keepsSeatsOpen) lines := by
  rw [said]
  split
  · contradiction
  · rfl

/-- The place that a seat line gives away, and to whom. -/
def seating? : BodyLine → Option (Fin 10 × Text)
  | .seat number player _ =>
    if player.isEmpty then none
    else (Seat.ofNumberText number).index?.map fun place => (place, player)
  | _ => none

/-- The player whom a deal shows to be the hero. -/
def hero? : BodyLine → Option Text
  | .dealt player _ => if player.isEmpty then none else some player
  | _ => none

/-- The player to whom a line awards a pot. -/
def winner? : BodyLine → Option Text
  | .winner player _ => some player
  | _ => none

/-- The player of whom an action or an award is told. -/
def actor? : BodyLine → Option Text
  | .winner player _ | .action _ player _ _ => some player
  | _ => none

/-- The bracket group of a line that deals cards. -/
def group? : BodyLine → Option Text
  | .board _ group? | .dealt _ group? => group?
  | _ => none

/-- The row of names after a line. -/
def sit (row : NameRow) (line : BodyLine) : NameRow :=
  match line.seating? with
  | some (place, player) => row.put player place
  | none => row

/-- The row of names after all lines of a hand. -/
def seats (lines : List BodyLine) : NameRow := lines.foldl sit .free

/-- What in a line ends the reading. -/
inductive Faulty (delimiter : Text) (row : NameRow) (line : BodyLine) : Prop
  | noCard {group : Text} (deals : line.group? = some group)
    (flawed : CardRow.IsFlawed delimiter group)
  /-- The empty name stands at a free place, and so passes for that of a player. -/
  | nobody (told : line.actor? = some []) (free : [] ∈ row.toList)

theorem faulty_iff_of_actor?_eq_none {delimiter : Text} {row : NameRow} {line : BodyLine}
    (noActor : line.actor? = none) :
    line.Faulty delimiter row ↔
      ∃ group, line.group? = some group ∧ CardRow.IsFlawed delimiter group := by
  constructor
  · rintro (⟨deals, flawed⟩ | ⟨told, -⟩)
    · exact ⟨_, deals, flawed⟩
    · rw [noActor] at told
      cases told
  · rintro ⟨group, deals, flawed⟩
    exact .noCard deals flawed

theorem faulty_iff_of_group?_eq_none {delimiter : Text} {row : NameRow} {line : BodyLine}
    (noGroup : line.group? = none) :
    line.Faulty delimiter row ↔ line.actor? = some [] ∧ [] ∈ row.toList := by
  constructor
  · rintro (⟨deals, -⟩ | ⟨told, free⟩)
    · rw [noGroup] at deals
      cases deals
    · exact ⟨told, free⟩
  · rintro ⟨told, free⟩
    exact .nobody told free

theorem seating?_eq_none_of_isSpoken {line : BodyLine} (spoken : line.IsSpoken) :
    line.seating? = none := by
  cases line with
  | seat => exact spoken.elim
  | _ => rfl

/-- Once the seats are closed, no line gives a place away. -/
theorem seating?_ofText_false (raw : Text) : (ofText false raw).seating? = none := by
  rcases seat_or_isSpoken_ofText false raw with ⟨opened, -⟩ | spoken
  · cases opened
  · exact seating?_eq_none_of_isSpoken spoken

theorem sit_of_none {line : BodyLine} (nowhere : line.seating? = none) (row : NameRow) :
    sit row line = row := by
  rw [sit, nowhere]

theorem foldl_sit_said_false (lines : List Text) (row : NameRow) :
    (said false lines).foldl sit row = row := by
  induction lines with
  | nil => rfl
  | cons raw lines ih =>
    by_cases summary : ofText false raw = .summary
    · rw [said_of_summary summary, List.foldl_nil]
    · rw [said_cons summary, List.foldl_cons, sit_of_none (seating?_ofText_false raw),
        Bool.false_and, ih]

theorem player_ne_nil_of_seating? {line : BodyLine} {place : Fin 10} {player : Text}
    (seated : line.seating? = some (place, player)) : player ≠ [] := by
  cases line with
  | seat number name text =>
    rw [seating?] at seated
    split at seated
    · cases seated
    · next named =>
      obtain ⟨_, _, same⟩ := Option.map_eq_some_iff.1 seated
      cases same
      simpa using named
  | _ => cases seated

/-- Whoever is in the row afterwards was there before, or is given a place. -/
theorem mem_sit {line : BodyLine} {row : NameRow} {name : Text}
    (inside : name ∈ (sit row line).toList) :
    name ∈ row.toList ∨ ∃ place, line.seating? = some (place, name) := by
  rw [sit] at inside
  split at inside
  · next place player seated =>
    rw [NameRow.toList_put] at inside
    rcases List.mem_or_eq_of_mem_set inside with before | rfl
    · exact Or.inl before
    · exact Or.inr ⟨place, seated⟩
  · exact Or.inl inside

theorem mem_foldl_sit {lines : List BodyLine} {row : NameRow} {name : Text}
    (inside : name ∈ (lines.foldl sit row).toList) :
    name ∈ row.toList ∨ ∃ line ∈ lines, ∃ place, line.seating? = some (place, name) := by
  induction lines generalizing row with
  | nil => exact Or.inl inside
  | cons line lines ih =>
    rcases ih inside with before | ⟨later, hlater, seated⟩
    · rcases mem_sit before with before | seated
      · exact Or.inl before
      · exact Or.inr ⟨line, List.mem_cons_self, seated⟩
    · exact Or.inr ⟨later, List.mem_cons_of_mem line hlater, seated⟩

/-- Somebody sits at the table just if a line gives a place away. -/
theorem occupied_foldl_sit (lines : List BodyLine) (row : NameRow) :
    (∃ name ∈ (lines.foldl sit row).toList, name ≠ []) ↔
      (∃ name ∈ row.toList, name ≠ []) ∨ ∃ line ∈ lines, line.seating? ≠ none := by
  induction lines generalizing row with
  | nil => simp
  | cons line lines ih =>
    rw [List.foldl_cons, ih, List.exists_mem_cons_iff, ← or_assoc]
    refine or_congr_left ?_
    cases seated : line.seating? with
    | none => simp [sit_of_none seated]
    | some seating =>
      obtain ⟨place, player⟩ := seating
      have sits : player ∈ (sit row line).toList := by
        rw [sit, seated, NameRow.toList_put]
        exact List.mem_set (by simp) player
      exact iff_of_true ⟨player, sits, player_ne_nil_of_seating? seated⟩ (Or.inr (by simp))

theorem occupied_seats_iff (lines : List BodyLine) :
    (∃ name ∈ (seats lines).toList, name ≠ []) ↔ ∃ line ∈ lines, line.seating? ≠ none := by
  rw [seats, occupied_foldl_sit]
  refine or_iff_right ?_
  rintro ⟨name, free, named⟩
  rw [NameRow.free, Vector.toList_replicate] at free
  exact named (List.eq_of_mem_replicate free)

end BodyLine

/-! ## Drafts -/

namespace Amount

/-- The last amount of a text is never negative, also where there is none. -/
theorem not_last_lt_zero (line : Text) : ¬ (last line).value < 0 := by
  rw [last]
  split
  · next amount found =>
    obtain ⟨token, _, read⟩ := List.exists_of_findSome?_eq_some found
    obtain ⟨d, _, rfl⟩ := Option.map_eq_some_iff.1 read
    exact d.not_toFloat_lt_zero
  · exact not_zero_lt_zero

end Amount

namespace Draft

open Reading

variable {context : HandContext} {draft : Draft}

/-- What a line that is no summary changes at the table, and what it keeps. -/
structure Takes (line : BodyLine) (before after : Draft) : Prop where
  seats : after.seats = BodyLine.sit before.seats line := by rfl
  seatsOpen : after.seatsOpen = before.seatsOpen := by rfl
  reading : after.inSummary = before.inSummary := by rfl
  ante : ¬ before.ante < 0 → ¬ after.ante < 0 := by exact id
  actions : ∃ told, after.actions = before.actions ++ told ∧
      ∀ action ∈ told, line.actor? = some action.player := by
    exact ⟨[], (List.append_nil _).symm, by simp⟩
  winners : after.winners = line.winner?.elim before.winners fun name =>
    if before.isSeated name then (before.addWinner name).winners else before.winners := by rfl

theorem decides_cards (group : Text) :
    Decides (cards context group) (CardRow.IsFlawed context.cardDelimiter group)
      fun _ => True := by
  rw [cards, ← CardRow.ofGroup_isError_iff]
  cases CardRow.ofGroup context.cardDelimiter group with
  | error e => exact Or.inl ⟨⟨e, rfl⟩, _, answers_throw _⟩
  | ok row =>
    refine (answers_pure row).decides ?_ trivial
    rintro ⟨e, impossible⟩
    cases impossible

theorem answers_takeSeat (number player line : Text) :
    ∃ after, Answers (draft.takeSeat context number player line) (.ok after) ∧
      Takes (.seat number player line) draft after := by
  unfold takeSeat
  split
  · next place known =>
    split
    · next nobody =>
      have nowhere : (BodyLine.seat number player line).seating? = none := if_pos nobody
      exact ⟨draft, (answers_record _).bind (answers_pure _),
        { seats := (BodyLine.sit_of_none nowhere _).symm }⟩
    · next somebody =>
      have seated : (BodyLine.seat number player line).seating? = some (place, player) := by
        rw [BodyLine.seating?, if_neg somebody, known]
        rfl
      refine ⟨_, (answers_enrol context.file ?_).bind (answers_pure _), { seats := ?_ }⟩
      · simpa using somebody
      · rw [BodyLine.sit, seated]
  · next unknown =>
    have nowhere : (BodyLine.seat number player line).seating? = none := by
      rw [BodyLine.seating?, unknown, Option.map_none, ite_self]
    exact ⟨draft, (answers_record _).bind (answers_pure _),
      { seats := (BodyLine.sit_of_none nowhere _).symm }⟩

theorem decides_takeBoard (part : BoardPart) (group? : Option Text) :
    Decides (draft.takeBoard context part group?)
      ((BodyLine.board part group?).Faulty context.cardDelimiter draft.seats)
      (Takes (.board part group?) draft) := by
  rw [BodyLine.faulty_iff_of_actor?_eq_none rfl]
  cases group? with
  | none => exact (answers_pure _).decides (by simp [BodyLine.group?]) {}
  | some group =>
    have only : (∃ dealt, (BodyLine.board part (some group)).group? = some dealt ∧
        CardRow.IsFlawed context.cardDelimiter dealt) ↔
        CardRow.IsFlawed context.cardDelimiter group := by simp [BodyLine.group?]
    rw [only]
    exact (decides_cards group).bind fun _ _ => ⟨_, answers_pure _, {}⟩

theorem decides_takeDealt (player : Text) (group? : Option Text) :
    Decides (draft.takeDealt context player group?)
      ((BodyLine.dealt player group?).Faulty context.cardDelimiter draft.seats)
      (Takes (.dealt player group?) draft) := by
  rw [BodyLine.faulty_iff_of_actor?_eq_none rfl]
  have row : Decides (cardsOr context draft.heroCards group?)
      (∃ group, group? = some group ∧ CardRow.IsFlawed context.cardDelimiter group)
      fun _ => True := by
    cases group? with
    | none => exact (answers_pure _).decides (by simp) trivial
    | some group =>
      simp only [Option.some.injEq, exists_eq_left']
      exact decides_cards group
  rw [takeDealt]
  refine row.bind fun heroCards _ => ?_
  split
  · next named =>
    have hplayer : player ≠ [] := by simpa using named
    exact ⟨_, (answers_markHero context.file hplayer).bind (answers_pure _), {}⟩
  · exact ⟨_, answers_pure _, {}⟩

/-- Nobody cannot be enrolled, and so cannot act or win. -/
theorem decides_takeWinner (player line : Text) :
    Decides (draft.takeWinner context player line)
      ((BodyLine.winner player line).Faulty context.cardDelimiter draft.seats)
      (Takes (.winner player line) draft) := by
  rw [BodyLine.faulty_iff_of_group?_eq_none rfl, takeWinner]
  by_cases seated : draft.isSeated player = true
  · rw [if_pos seated]
    by_cases named : player = []
    · subst named
      exact Or.inl ⟨⟨rfl, mem_seats_of_isSeated seated⟩, _,
        (answers_enrol_nil context.file).bind_error _⟩
    · have taken : Answers (do enrol context.file player; pure (draft.addWinner player))
          (.ok (draft.addWinner player)) :=
        (answers_enrol context.file named).bind (answers_pure _)
      refine taken.decides ?_ ?_
      · rintro ⟨told, -⟩
        exact named (Option.some.inj told)
      · have only : draft.addWinner player =
            { draft with winners := (draft.addWinner player).winners } := by
          unfold addWinner
          split <;> rfl
        rw [only]
        exact { winners := (if_pos seated).symm }
  · rw [if_neg seated]
    refine ((answers_record _).bind (answers_pure draft)).decides ?_
      { winners := (if_neg seated).symm }
    rintro ⟨told, free⟩
    cases told
    exact seated (isSeated_of_mem free)

theorem decides_takeAction (ofHand : context.handId ≠ []) (kind : ActionKind)
    (player tail line : Text) :
    Decides (draft.takeAction context kind player tail line)
      ((BodyLine.action kind player tail line).Faulty context.cardDelimiter draft.seats)
      (Takes (.action kind player tail line) draft) := by
  rw [BodyLine.faulty_iff_of_group?_eq_none rfl, takeAction]
  by_cases seated : draft.isSeated player = true
  · rw [if_pos seated]
    have acts : ∀ amount : Float, ¬ amount < 0 →
        Decides (draft.addAction context kind player amount)
          ((BodyLine.action kind player tail line).actor? = some [] ∧ [] ∈ draft.seats.toList)
          (Takes (.action kind player tail line) draft) := by
      intro amount notNegative
      by_cases named : player = []
      · subst named
        exact Or.inl ⟨⟨rfl, mem_seats_of_isSeated seated⟩, _,
          (answers_enrol_nil context.file).bind_error _⟩
      · refine (answers_addAction ofHand named notNegative).decides ?_
          { actions := ⟨_, rfl, List.forall_mem_singleton.2 rfl⟩ }
        rintro ⟨told, -⟩
        exact named (Option.some.inj told)
    dsimp only
    split
    · exact (answers_ofLogged _).bind_decides (acts _ (Amount.not_last_lt_zero tail))
    · exact (answers_pure 0).bind_decides (acts 0 Amount.not_zero_lt_zero)
  · rw [if_neg seated]
    refine ((answers_record _).bind (answers_pure draft)).decides ?_ {}
    rintro ⟨told, free⟩
    cases told
    exact seated (isSeated_of_mem free)

/-- The step: what a line that is no summary does to a draft. -/
theorem decides_takeLine (ofHand : context.handId ≠ []) {line : BodyLine}
    (inside : line ≠ .summary) :
    Decides (takeLine context draft line) (line.Faulty context.cardDelimiter draft.seats)
      (Takes line draft) := by
  have harmless : line.actor? = none → line.group? = none →
      ¬ line.Faulty context.cardDelimiter draft.seats := by
    intro noActor noGroup
    rw [BodyLine.faulty_iff_of_actor?_eq_none noActor, noGroup]
    rintro ⟨_, impossible, -⟩
    cases impossible
  cases line with
  | summary => exact absurd rfl inside
  | blank | brokenSeat | marker | blind | noise =>
    exact (answers_pure draft).decides (harmless rfl rfl) {}
  | preflop => exact (answers_pure _).decides (harmless rfl rfl) {}
  | seat number player line =>
    obtain ⟨after, taken, takes⟩ := @answers_takeSeat context draft number player line
    exact taken.decides (harmless rfl rfl) takes
  | board part group? => exact decides_takeBoard part group?
  | ante line =>
    have taken : Answers (takeLine context draft (.ante line))
        (.ok { draft with ante := (Amount.last line).value }) := by
      rw [takeLine]
      exact (answers_ofLogged _).bind (answers_pure _)
    exact taken.decides (harmless rfl rfl)
      { ante := fun _ => Amount.not_last_lt_zero line }
  | dealt player group? => exact decides_takeDealt player group?
  | winner player line => exact decides_takeWinner player line
  | action kind player tail line => exact decides_takeAction ofHand kind player tail line

theorem decides_consume (ofHand : context.handId ≠ []) (reading : draft.inSummary = false)
    {raw : Text} (inside : BodyLine.ofText draft.seatsOpen raw ≠ .summary) :
    Decides (draft.consume context raw)
      ((BodyLine.ofText draft.seatsOpen raw).Faulty context.cardDelimiter draft.seats)
      (Takes (BodyLine.ofText draft.seatsOpen raw) { draft with
        seatsOpen := draft.seatsOpen && (BodyLine.ofText draft.seatsOpen raw).keepsSeatsOpen }) := by
  rw [consume, if_neg (by simp [reading])]
  exact @decides_takeLine context { draft with seatsOpen := _ } ofHand _ inside

end Draft

/-! ## Bodies -/

namespace BodyLine

/-- An action or an award is told only when all places have been given away. -/
theorem foldl_sit_of_actor? {seatsOpen : Bool} {raw player : Text} (lines : List Text)
    (row : NameRow) (acts : (ofText seatsOpen raw).actor? = some player) :
    (said (seatsOpen && (ofText seatsOpen raw).keepsSeatsOpen) lines).foldl sit
      (sit row (ofText seatsOpen raw)) = row := by
  generalize ofText seatsOpen raw = line at acts
  have closes : line.keepsSeatsOpen = false ∧ line.seating? = none := by
    cases line with
    | winner | action => exact ⟨rfl, rfl⟩
    | _ => cases acts
  rw [closes.1, Bool.and_false, foldl_sit_said_false, sit_of_none closes.2]

theorem faulty_foldl_sit_iff {delimiter : Text} (seatsOpen : Bool) (raw : Text)
    (lines : List Text) (row : NameRow) :
    (ofText seatsOpen raw).Faulty delimiter
        ((said (seatsOpen && (ofText seatsOpen raw).keepsSeatsOpen) lines).foldl sit
          (sit row (ofText seatsOpen raw))) ↔
      (ofText seatsOpen raw).Faulty delimiter row := by
  cases acts : (ofText seatsOpen raw).actor? with
  | none => rw [faulty_iff_of_actor?_eq_none acts, faulty_iff_of_actor?_eq_none acts]
  | some player => rw [foldl_sit_of_actor? lines row acts]

end BodyLine

namespace History

open Reading

variable {context : HandContext} {draft : Draft}

/-- Once the summary has begun, no line says anything. -/
theorem draftOf_of_inSummary (begun : draft.inSummary = true) (lines : List Text) :
    draftOf context lines draft = .ok draft := by
  induction lines with
  | nil => rfl
  | cons line lines ih =>
    have skipped : Answers (draft.consume context line) (.ok draft) := by
      rw [Draft.consume, if_pos begun]
      exact answers_pure draft
    rw [draftOf_cons skipped, ih]

theorem answers_consume_of_summary (reading : draft.inSummary = false) {raw : Text}
    (begins : BodyLine.ofText draft.seatsOpen raw = .summary) :
    Answers (draft.consume context raw) (.ok { draft with inSummary := true }) := by
  have kept : (draft.seatsOpen && BodyLine.summary.keepsSeatsOpen) = draft.seatsOpen :=
    Bool.and_true _
  rw [Draft.consume, if_neg (by simp [reading]), begins]
  dsimp only
  rw [kept]
  exact answers_pure _

theorem draftOf_of_summary (reading : draft.inSummary = false) {raw : Text}
    (begins : BodyLine.ofText draft.seatsOpen raw = .summary) (lines : List Text) :
    draftOf context (raw :: lines) draft = .ok { draft with inSummary := true } := by
  rw [draftOf_cons (answers_consume_of_summary reading begins), draftOf_of_inSummary rfl]

/-- The run: a body is read unless it says something faulty. -/
theorem draftOf_isError_iff (ofHand : context.handId ≠ []) (reading : draft.inSummary = false)
    (lines : List Text) :
    (∃ e, draftOf context lines draft = .error e) ↔
      ∃ line ∈ BodyLine.said draft.seatsOpen lines, line.Faulty context.cardDelimiter
        ((BodyLine.said draft.seatsOpen lines).foldl BodyLine.sit draft.seats) := by
  induction lines generalizing draft with
  | nil => simp [draftOf, BodyLine.said]
  | cons raw lines ih =>
    by_cases summary : BodyLine.ofText draft.seatsOpen raw = .summary
    · rw [draftOf_of_summary reading summary, BodyLine.said_of_summary summary]
      simp
    · rw [BodyLine.said_cons summary, List.foldl_cons, List.exists_mem_cons_iff,
        BodyLine.faulty_foldl_sit_iff]
      rcases Draft.decides_consume ofHand reading summary with
        ⟨faulty, e, failed⟩ | ⟨sound, after, taken, takes⟩
      · refine iff_of_true ⟨e, ?_⟩ (Or.inl faulty)
        rw [draftOf, failed.answer_eq]
        rfl
      · rw [draftOf_cons taken, or_iff_right sound, ih (takes.reading.trans reading),
          takes.seatsOpen, takes.seats]

theorem draftOf_eq_ok {after : Draft} (ofHand : context.handId ≠ [])
    (reading : draft.inSummary = false) {lines : List Text}
    (read : draftOf context lines draft = .ok after) :
    after.seats = (BodyLine.said draft.seatsOpen lines).foldl BodyLine.sit draft.seats ∧
      (¬ draft.ante < 0 → ¬ after.ante < 0) := by
  induction lines generalizing draft with
  | nil =>
    cases read
    exact ⟨rfl, id⟩
  | cons raw lines ih =>
    by_cases summary : BodyLine.ofText draft.seatsOpen raw = .summary
    · rw [draftOf_of_summary reading summary] at read
      rw [BodyLine.said_of_summary summary]
      cases read
      exact ⟨rfl, id⟩
    · rw [BodyLine.said_cons summary, List.foldl_cons]
      rcases Draft.decides_consume ofHand reading summary with
        ⟨-, e, failed⟩ | ⟨-, next, taken, takes⟩
      · rw [draftOf, failed.answer_eq] at read
        cases read
      · rw [draftOf_cons taken] at read
        obtain ⟨seats, ante⟩ := ih (takes.reading.trans reading) read
        rw [takes.seatsOpen, takes.seats] at seats
        exact ⟨seats, fun before => ante (takes.ante before)⟩

end History

end HandHistory
