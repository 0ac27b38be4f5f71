import HandHistory.Proofs.Faults
import HandHistory.Proofs.Games

/-!
# What a text brings to a roster

Only two kinds of line bring a player to a roster: a line that gives a place away,
and a line that shows the hero's cards. Whoever acts or wins has a place already,
and so is known by then.

`Roster.Gains` says what a roster has afterwards that it did not have before. One
line gains what it mentions (`Draft.gains_consume`), a body what its lines mention,
and a file what is told in its blocks (`History.gains_readGame`). Nothing of this
depends on who was there before.
-/

namespace HandHistory

/-! ## Mentions -/

namespace BodyLine

/-- The player whom a line brings to a roster, and whether as the hero. -/
def mention? (line : BodyLine) : Option (Text × Bool) :=
  match line.seating? with
  | some (_, player) => some (player, false)
  | none => line.hero?.map fun player => (player, true)

/-- The players whom lines bring to a roster. -/
def mentions (lines : List BodyLine) : List (Text × Bool) := lines.filterMap mention?

theorem mention?_of_seating? {line : BodyLine} {place : Fin 10} {player : Text}
    (seated : line.seating? = some (place, player)) : line.mention? = some (player, false) := by
  rw [mention?, seated]

theorem hero?_of_seating? {line : BodyLine} {seating : Fin 10 × Text}
    (seated : line.seating? = some seating) : line.hero? = none := by
  cases line with
  | seat => rfl
  | _ => cases seated

theorem mention?_iff {line : BodyLine} {name : Text} {flag : Bool} :
    line.mention? = some (name, flag) ↔
      (flag = false ∧ ∃ place, line.seating? = some (place, name)) ∨
        (flag = true ∧ line.hero? = some name) := by
  cases seated : line.seating? with
  | none =>
    cases hero : line.hero? with
    | none => simp [mention?, seated, hero]
    | some player => simp [mention?, seated, hero, and_comm, eq_comm]
  | some seating =>
    obtain ⟨place, player⟩ := seating
    simp [mention?, seated, hero?_of_seating? seated, and_comm, eq_comm]

/-- The heroes among those who are mentioned are the players whom a deal shows. -/
theorem mem_mentions_true {lines : List BodyLine} {name : Text} :
    (name, true) ∈ mentions lines ↔ ∃ line ∈ lines, line.hero? = some name := by
  simp [mentions, mention?_iff]

theorem exists_mem_mentions {lines : List BodyLine} {name : Text} :
    (∃ flag, (name, flag) ∈ mentions lines) ↔
      ∃ line ∈ lines, (∃ place, line.seating? = some (place, name)) ∨ line.hero? = some name := by
  constructor
  · rintro ⟨flag, told⟩
    obtain ⟨line, hline, brings⟩ := List.mem_filterMap.1 told
    rcases mention?_iff.1 brings with ⟨-, seated⟩ | ⟨-, hero⟩
    · exact ⟨line, hline, Or.inl seated⟩
    · exact ⟨line, hline, Or.inr hero⟩
  · rintro ⟨line, hline, seated | hero⟩
    · exact ⟨false, List.mem_filterMap.2 ⟨line, hline, mention?_iff.2 (Or.inl ⟨rfl, seated⟩)⟩⟩
    · exact ⟨true, List.mem_filterMap.2 ⟨line, hline, mention?_iff.2 (Or.inr ⟨rfl, hero⟩)⟩⟩

end BodyLine

/-! ## Gains -/

namespace Players

/-- All players are of one site. -/
def OfSite (site : Text) (players : Players) : Prop :=
  ∀ player ∈ players.toList, player.site = site

theorem site_of_mem_placeIn {flag : Bool} {newcomer p : Player} {players : List Player}
    {site : Text} (ofSite : ∀ player ∈ players, player.site = site)
    (same : newcomer.site = site) (h : p ∈ placeIn flag newcomer players) : p.site = site := by
  induction players with
  | nil =>
    rw [placeIn, List.mem_singleton] at h
    exact h ▸ same
  | cons player players ih =>
    have first := ofSite player List.mem_cons_self
    have others : ∀ other ∈ players, other.site = site := fun other hother =>
      ofSite other (List.mem_cons_of_mem player hother)
    rw [placeIn] at h
    split at h
    · rcases List.mem_cons.1 h with rfl | h
      · exact same
      · exact ofSite p h
    · split at h
      · rcases List.mem_cons.1 h with rfl | h
        · exact first
        · exact ih others h
      · rcases List.mem_cons.1 h with rfl | h
        · exact first
        · exact others p h

end Players

namespace Roster

/-- What a roster has gained of players who are mentioned: their names, and the hero
marks of those who are mentioned as the hero. -/
structure Gains (mentioned : List (Text × Bool)) (before after : Roster) : Prop where
  site : after.site = before.site
  names : ∀ name, name ∈ after.players.names ↔
    name ∈ before.players.names ∨ ∃ flag, (name, flag) ∈ mentioned
  heroes : ∀ name, after.players.Hero name ↔
    before.players.Hero name ∨ (name, true) ∈ mentioned
  ofSite : before.players.OfSite before.site → after.players.OfSite after.site

variable {before between after : Roster} {name : Text}

theorem Gains.refl (roster : Roster) : Gains [] roster roster where
  site := rfl
  names := by simp
  heroes := by simp
  ofSite := id

theorem Gains.trans {first second : List (Text × Bool)} (h : Gains first before between)
    (h' : Gains second between after) : Gains (first ++ second) before after where
  site := h'.site.trans h.site
  names := by
    intro name
    rw [h'.names, h.names, or_assoc]
    simp only [List.mem_append, exists_or]
  heroes := by
    intro name
    rw [h'.heroes, h.heroes, or_assoc, List.mem_append]
  ofSite := fun known => h'.ofSite (h.ofSite known)

/-- A roster forgets nobody. -/
theorem Gains.mem_names {mentioned : List (Text × Bool)} (h : Gains mentioned before after)
    (known : name ∈ before.players.names) : name ∈ after.players.names :=
  (h.names name).2 (Or.inl known)

/-- The roster has the players of a row. -/
def Knows (roster : Roster) (row : NameRow) : Prop :=
  ∀ name ∈ row.toList, name ≠ [] → name ∈ roster.players.names

theorem Gains.knows {mentioned : List (Text × Bool)} (h : Gains mentioned before after)
    {row : NameRow} (known : before.Knows row) : after.Knows row :=
  fun name inside named => h.mem_names (known name inside named)

/-- One placement gains one player. -/
theorem gains_place {flag hero : Bool} {newcomer : Player}
    (ofRoster : before.players.OfSite before.site → newcomer.site = before.site)
    (marks : ∀ known, before.players.find? newcomer.name = some known → flag = hero)
    (brings : before.players.find? newcomer.name = none → newcomer.isHero = hero) :
    Gains [(newcomer.name, hero)] before
      { before with players := before.players.place flag newcomer } where
  site := rfl
  names := by
    intro name
    rw [Players.mem_names_place, or_comm]
    simp
  heroes := by
    intro name
    unfold Players.Hero
    rw [Players.find?_place]
    by_cases same : newcomer.name = name
    · subst same
      cases found : before.players.find? newcomer.name with
      | none => cases hero <;> simp [brings found]
      | some known => cases hero <;> simp [Player.flagged, marks known found]
    · have other : name ≠ newcomer.name := fun h => same h.symm
      simp [same, other]
  ofSite := fun known _ inside => Players.site_of_mem_placeIn known (ofRoster known) inside

theorem not_mem_names_iff : name ∉ before.players.names ↔ before.players.find? name = none := by
  rw [Players.mem_names_iff, Bool.not_eq_true, Option.isSome_eq_false_iff,
    Option.isNone_iff_eq_none]

/-- Enrolling a known player changes nothing. -/
theorem enrol_of_mem (known : name ∈ before.players.names) :
    before.enrol name = .ok (false, before) :=
  if_pos (Players.mem_names_iff.1 known)

theorem gains_enrol {isNew : Bool} (enrolled : before.enrol name = .ok (isNew, after)) :
    Gains [(name, false)] before after := by
  by_cases known : name ∈ before.players.names
  · rw [enrol_of_mem known] at enrolled
    cases enrolled
    exact
      { site := rfl
        names := fun other => by
          refine (or_iff_left_of_imp ?_).symm
          rintro ⟨flag, same⟩
          cases List.mem_singleton.1 same
          exact known
        heroes := by simp
        ofSite := id }
  · have unknown := not_mem_names_iff.1 known
    rw [enrol, Players.hasName, unknown] at enrolled
    cases created : Player.create name before.site with
    | error e =>
      rw [created] at enrolled
      cases enrolled
    | ok player =>
      rw [created] at enrolled
      cases enrolled
      obtain ⟨rfl, site, notHero⟩ := Player.create_eq_ok created
      exact gains_place (fun _ => site) (fun _ _ => rfl) fun _ => notHero

theorem gains_markHero (marked : before.markHero name = .ok after) :
    Gains [(name, true)] before after := by
  rw [markHero] at marked
  cases found : before.players.find? name with
  | some player =>
    rw [found] at marked
    cases marked
    obtain rfl := Players.name_of_find? found
    refine gains_place ?_ (fun _ _ => rfl) fun absent => ?_
    · exact fun ofSite => ofSite player (List.mem_of_find?_eq_some found)
    · rw [found] at absent
      cases absent
  | none =>
    rw [found] at marked
    cases created : Player.create name before.site with
    | error e =>
      rw [created] at marked
      cases marked
    | ok player =>
      rw [created] at marked
      cases marked
      obtain ⟨rfl, site, notHero⟩ := Player.create_eq_ok created
      refine @gains_place before false true (player.flagged true) (fun _ => site) ?_ fun _ => ?_
      · intro other there
        rw [Player.name_flagged, found] at there
        cases there
      · simp [Player.flagged]

end Roster

/-! ## Readings -/

namespace Reading

variable {α β : Type} {row : NameRow} {told more : List (Text × Bool)}

/-- From every roster that knows the players of a row, each answer of the reading leaves
a roster that has gained those who are mentioned. -/
def Brings (row : NameRow) (x : Reading α) (mentioned : List (Text × Bool)) : Prop :=
  ∀ session a after, session.roster.Knows row → x.runFrom session = (.ok a, after) →
    session.roster.Gains mentioned after.roster

theorem brings_pure (a : α) : Brings row (pure a) [] := by
  intro session b after _ run
  cases run
  exact .refl session.roster

theorem brings_throw (e : ParseError) : Brings row (throw e : Reading α) told := by
  intro session a after _ run
  cases run

theorem brings_record (events : List Event) : Brings row (record events) [] := by
  intro session a after _ run
  cases run
  exact .refl session.roster

theorem Brings.bind {x : Reading α} {f : α → Reading β} (hx : Brings row x told)
    (hf : ∀ a, Brings row (f a) more) : Brings row (x >>= f) (told ++ more) := by
  intro session b after known run
  obtain ⟨a, between, first, second⟩ := exists_of_runFrom_bind run
  have gains := hx session a between known first
  exact gains.trans (hf a between b after (gains.knows known) second)

/-- What brings nobody first does not show. -/
theorem Brings.then {x : Reading α} {f : α → Reading β} (hx : Brings row x [])
    (hf : ∀ a, Brings row (f a) told) : Brings row (x >>= f) told :=
  hx.bind hf

/-- What brings nobody at the end does not show either. -/
theorem Brings.andPure {x : Reading α} (hx : Brings row x told) (f : α → β) :
    Brings row (x >>= fun a => pure (f a)) told := by
  have both : Brings row (x >>= fun a => pure (f a)) (told ++ []) :=
    hx.bind fun a => brings_pure (f a)
  rwa [List.append_nil] at both

theorem brings_ofLogged (logged : Logged α) : Brings row (ofLogged logged) [] :=
  (brings_record logged.events).andPure _

theorem brings_ofModel (file : Text) (result : Except ModelError α) :
    Brings row (ofModel file result) [] := by
  cases result with
  | ok a => exact brings_pure a
  | error e => exact brings_throw _

theorem brings_enrol (file name : Text) : Brings row (enrol file name) [(name, false)] := by
  intro session a after _ run
  rw [runFrom_enrol] at run
  cases enrolled : session.roster.enrol name with
  | error e =>
    rw [enrolled] at run
    cases run
  | ok result =>
    rw [enrolled] at run
    cases run
    exact Roster.gains_enrol enrolled

/-- Enrolling a player of the row brings nobody. -/
theorem brings_enrol_of_mem (file : Text) {name : Text} (seated : name ∈ row.toList) :
    Brings row (enrol file name) [] := by
  intro session a after known run
  have named : name ≠ [] := yields_enrol file name session a after run
  rw [runFrom_enrol, Roster.enrol_of_mem (known name seated named)] at run
  cases run
  exact .refl session.roster

theorem brings_markHero (file name : Text) : Brings row (markHero file name) [(name, true)] := by
  intro session a after _ run
  rw [runFrom_markHero] at run
  cases marked : session.roster.markHero name with
  | error e =>
    rw [marked] at run
    cases run
  | ok roster =>
    rw [marked] at run
    cases run
    exact Roster.gains_markHero marked

end Reading

/-! ## Lines -/

namespace Draft

open Reading

variable {context : HandContext} {draft : Draft}

theorem brings_cards (row : NameRow) (group : Text) : Brings row (cards context group) [] := by
  rw [cards]
  split
  · exact brings_pure _
  · exact brings_throw _

theorem brings_cardsOr (row : NameRow) (cards : CardRow) (group? : Option Text) :
    Brings row (cardsOr context cards group?) [] := by
  cases group? with
  | none => exact brings_pure cards
  | some group => exact brings_cards row group

/-- Whoever acts is at the table, and so is no newcomer. -/
theorem brings_addAction {row : NameRow} {kind : ActionKind} {player : Text} {amount : Float}
    (seated : player ∈ row.toList) :
    Brings row (draft.addAction context kind player amount) [] := by
  rw [addAction]
  refine (brings_enrol_of_mem context.file seated).then fun _ => ?_
  exact (brings_ofModel context.file _).then fun action => brings_pure _

theorem brings_takeSeat (number player line : Text) :
    Brings draft.seats (draft.takeSeat context number player line)
      (BodyLine.mentions [.seat number player line]) := by
  unfold takeSeat
  split
  · next place known =>
    split
    · next nobody =>
      have nothing : BodyLine.mentions [.seat number player line] = [] := by
        simp [BodyLine.mentions, BodyLine.mention?, BodyLine.seating?, BodyLine.hero?, nobody]
      rw [nothing]
      exact (brings_record _).then fun _ => brings_pure draft
    · next somebody =>
      have one : BodyLine.mentions [.seat number player line] = [(player, false)] := by
        simp [BodyLine.mentions, BodyLine.mention?, BodyLine.seating?, somebody, known]
      rw [one]
      exact (brings_enrol context.file player).andPure _
  · next unknown =>
    have nothing : BodyLine.mentions [.seat number player line] = [] := by
      simp [BodyLine.mentions, BodyLine.mention?, BodyLine.seating?, BodyLine.hero?, unknown]
    rw [nothing]
    exact (brings_record _).then fun _ => brings_pure draft

theorem brings_takeDealt (player : Text) (group? : Option Text) :
    Brings draft.seats (draft.takeDealt context player group?)
      (BodyLine.mentions [.dealt player group?]) := by
  rw [takeDealt]
  refine (brings_cardsOr draft.seats draft.heroCards group?).then fun heroCards => ?_
  split
  · next named =>
    have hplayer : player ≠ [] := by simpa using named
    have one : BodyLine.mentions [.dealt player group?] = [(player, true)] := by
      simp [BodyLine.mentions, BodyLine.mention?, BodyLine.seating?, BodyLine.hero?, hplayer]
    rw [one]
    exact (brings_markHero context.file player).andPure _
  · next nobody =>
    have hplayer : player = [] := by simpa using nobody
    have nothing : BodyLine.mentions [.dealt player group?] = [] := by
      simp [BodyLine.mentions, BodyLine.mention?, BodyLine.seating?, BodyLine.hero?, hplayer]
    rw [nothing]
    exact brings_pure _

theorem brings_takeWinner (player line : Text) :
    Brings draft.seats (draft.takeWinner context player line) [] := by
  rw [takeWinner]
  split
  · next seated =>
    exact (brings_enrol_of_mem context.file (mem_seats_of_isSeated seated)).andPure _
  · exact (brings_record _).then fun _ => brings_pure draft

theorem brings_takeAction (kind : ActionKind) (player tail line : Text) :
    Brings draft.seats (draft.takeAction context kind player tail line) [] := by
  rw [takeAction]
  split
  · next seated =>
    have acts : ∀ amount : Float,
        Brings draft.seats (draft.addAction context kind player amount) [] := fun amount =>
      brings_addAction (mem_seats_of_isSeated seated)
    dsimp only
    split
    · exact (brings_ofLogged _).then acts
    · exact (brings_pure 0).then acts
  · exact (brings_record _).then fun _ => brings_pure draft

/-- The step: a line brings the player whom it mentions. -/
theorem brings_takeLine (line : BodyLine) :
    Brings draft.seats (takeLine context draft line) (BodyLine.mentions [line]) := by
  cases line with
  | blank | summary | brokenSeat | preflop | marker | blind | noise => exact brings_pure _
  | seat number player line => exact brings_takeSeat number player line
  | board part group? =>
    cases group? with
    | none => exact brings_pure _
    | some group => exact (brings_cards draft.seats group).then fun cards => brings_pure _
  | ante line => exact (brings_ofLogged _).then fun ante => brings_pure _
  | dealt player group? => exact brings_takeDealt player group?
  | winner player line => exact brings_takeWinner player line
  | action kind player tail line => exact brings_takeAction kind player tail line

/-- Silent winners are at the table. -/
theorem brings_silent {row : NameRow} {names : List Text}
    (seated : ∀ name ∈ names, name ∈ row.toList) :
    Brings row (names.foldlM (fun draft name => draft.addAction context .silent name 0) draft)
      [] := by
  induction names generalizing draft with
  | nil => exact brings_pure draft
  | cons name names ih =>
    rw [List.foldlM_cons]
    refine (brings_addAction (seated name List.mem_cons_self)).then fun draft => ih ?_
    intro other hother
    exact seated other (List.mem_cons_of_mem name hother)

/-- The next line of a body brings whom it mentions, and the roster knows everybody who
is at the table after it. -/
theorem gains_consume {session after : Session} {raw : Text} {next : Draft}
    (ofHand : context.handId ≠ []) (ready : session.roster.site ≠ [])
    (reading : draft.inSummary = false)
    (inside : BodyLine.ofText draft.seatsOpen raw ≠ .summary)
    (known : session.roster.Knows draft.seats)
    (run : (draft.consume context raw).runFrom session = (.ok next, after)) :
    let line := BodyLine.ofText draft.seatsOpen raw
    session.roster.Gains (BodyLine.mentions [line]) after.roster ∧
      after.roster.Knows next.seats ∧ next.inSummary = false ∧
      next.seatsOpen = (draft.seatsOpen && line.keepsSeatsOpen) := by
  intro line
  have gains : session.roster.Gains (BodyLine.mentions [line]) after.roster := by
    rw [consume, if_neg (by simp [reading])] at run
    exact @brings_takeLine context
      { draft with seatsOpen := draft.seatsOpen && line.keepsSeatsOpen } line session next after
      known run
  rcases decides_consume ofHand reading inside with ⟨-, e, failed⟩ | ⟨-, taken, answered, takes⟩
  · obtain ⟨roster, events, fails, -⟩ := failed session ready
    rw [fails] at run
    cases run
  · obtain ⟨roster, events, takesTo, -⟩ := answered session ready
    rw [takesTo] at run
    cases run
    refine ⟨gains, ?_, takes.reading.trans reading, takes.seatsOpen⟩
    rw [takes.seats]
    intro name sits named
    rcases BodyLine.mem_sit sits with before | ⟨place, seated⟩
    · exact gains.mem_names (known name before named)
    · refine (gains.names name).2 (Or.inr ⟨false, ?_⟩)
      exact List.mem_filterMap.2
        ⟨line, List.mem_singleton_self line, BodyLine.mention?_of_seating? seated⟩

end Draft

/-! ## Hands and files -/

namespace History

open Reading

variable {room : Room} {session after : Session}

/-- What a hand tells behind its header and its table line. -/
def told (block : List Text) : List BodyLine := BodyLine.said true (block.drop 2)

/-- Once the summary has begun, a body brings nobody. -/
theorem gains_readBody_of_inSummary {context : HandContext} {draft last : Draft}
    {lines : List Text} (begun : draft.inSummary = true)
    (run : (readBody room context lines draft).runFrom session = (.ok last, after)) :
    last = draft ∧ after.roster = session.roster := by
  induction lines generalizing session with
  | nil =>
    cases run
    exact ⟨rfl, rfl⟩
  | cons line lines ih =>
    rw [readBody] at run
    split at run
    · cases run
      exact ⟨rfl, rfl⟩
    · rw [runFrom_bind_of_ok (runFrom_nextLine session), Draft.consume, if_pos begun,
        runFrom_bind_of_ok (runFrom_pure _ draft)] at run
      exact @ih { session with cursor := session.cursor.nextLine.2 } run

/-- The run: a body brings whom its lines mention, up to the next header. -/
theorem gains_readBody {context : HandContext} {draft last : Draft} {lines : List Text}
    (ofHand : context.handId ≠ []) (ready : session.roster.site ≠ [])
    (reading : draft.inSummary = false) (known : session.roster.Knows draft.seats)
    (run : (readBody room context lines draft).runFrom session = (.ok last, after)) :
    session.roster.Gains (BodyLine.mentions (BodyLine.said draft.seatsOpen
      (lines.takeWhile fun line => !room.isHandStart line))) after.roster ∧
      after.roster.Knows last.seats := by
  induction lines generalizing session draft with
  | nil =>
    cases run
    exact ⟨.refl after.roster, known⟩
  | cons line lines ih =>
    rw [readBody] at run
    by_cases start : room.isHandStart line = true
    · rw [if_pos start] at run
      rw [List.takeWhile_cons_of_neg (by simp [start])]
      cases run
      exact ⟨.refl after.roster, known⟩
    · rw [if_neg start, runFrom_bind_of_ok (runFrom_nextLine session)] at run
      rw [Bool.not_eq_true] at start
      rw [List.takeWhile_cons_of_pos (by simp [start])]
      obtain ⟨next, between, first, rest⟩ := exists_of_runFrom_bind run
      by_cases summary : BodyLine.ofText draft.seatsOpen line = .summary
      · rw [BodyLine.said_of_summary summary]
        rw [Draft.consume, if_neg (by simp [reading]), summary] at first
        cases first
        obtain ⟨rfl, same⟩ := gains_readBody_of_inSummary rfl rest
        rw [same]
        exact ⟨.refl session.roster, known⟩
      · obtain ⟨gains, knows, still, opened⟩ := @Draft.gains_consume context draft
          { session with cursor := session.cursor.nextLine.2 } between line next ofHand ready
          reading summary known first
        have stillReady : between.roster.site ≠ [] := gains.site ▸ ready
        obtain ⟨others, last⟩ := ih stillReady still knows rest
        rw [BodyLine.said_cons summary, ← opened, ← List.singleton_append, BodyLine.mentions,
          List.filterMap_append]
        exact ⟨gains.trans others, last⟩

/-- What follows a table line brings whom its body mentions; the silent winners of the
body are at the table by then. -/
theorem gains_readRest {header : Header} {table : TableLine} {record : HandRecord}
    (ofHand : header.handId ≠ []) (ready : session.roster.site ≠ [])
    (run : (readRest room header table).runFrom session = (.ok record, after)) :
    session.roster.Gains (BodyLine.mentions (BodyLine.said true
      (session.cursor.ahead.takeWhile fun line => !room.isHandStart line))) after.roster := by
  rw [readRest, runFrom_bind_of_ok (runFrom_get session)] at run
  obtain ⟨draft, between, body, rest⟩ := exists_of_runFrom_bind run
  have nobody : session.roster.Knows NameRow.free := by
    intro name free named
    rw [NameRow.free, Vector.toList_replicate] at free
    exact absurd (List.eq_of_mem_replicate free) named
  obtain ⟨gains, known⟩ :=
    @gains_readBody room session between _ {} _ _ ofHand ready rfl nobody body
  have inBody := yields_readBody room (Draft.inBody_seats _ .free) _ session draft between body
  have silent : Brings draft.seats
      (draft.addSilentWinners (contextOf room session.cursor.file header)) [] :=
    Draft.brings_silent fun name hname => inBody.winnersSeated name (List.mem_filter.1 hname).1
  have others := (silent.then fun last => (brings_ofModel session.cursor.file
    (assemble room header table last).create).then fun hand =>
      brings_pure ({ header, table, hand } : HandRecord)) between record after known rest
  have all := gains.trans others
  rwa [List.append_nil] at all

/-- A hand brings whom its block tells of. -/
theorem gains_readHand {header : Text} {ahead : List Text} {record : HandRecord}
    (ready : session.roster.site ≠ [])
    (found : session.cursor.rest.dropWhile (fun line => !room.isHandStart line) =
      header :: ahead)
    (run : (readHand room).runFrom session = (.ok record, after)) :
    session.roster.Gains (BodyLine.mentions (told
      (header :: ahead.takeWhile fun line => !room.isHandStart line))) after.roster := by
  rw [readHand] at run
  obtain ⟨head, atHeader, readHead, behindHeader⟩ := exists_of_runFrom_bind run
  obtain ⟨there, events, runHead, on⟩ := runFrom_readHeader found
  cases accepted : room.readHeader session.cursor.file header with
  | error e =>
    rw [runHead, accepted] at readHead
    cases readHead
  | ok logged =>
    rw [runHead, accepted] at readHead
    cases readHead
    obtain ⟨table, atTable, readTable, body⟩ := exists_of_runFrom_bind behindHeader
    cases ahead with
    | nil =>
      rw [@runFrom_readTableLine_of_nil room { session with cursor := there, events } on.ahead_eq]
        at readTable
      cases readTable
    | cons line lines =>
      obtain ⟨next, runTable, onNext⟩ := @runFrom_readTableLine_of_cons room
        { session with cursor := there, events } line lines on.ahead_eq
      rw [runTable] at readTable
      have inside : room.isHandStart line = false := by
        by_contra start
        rw [Bool.not_eq_false] at start
        obtain ⟨e, refused⟩ := @readTableLine_of_isHandStart room there.file line start
        rw [refused] at readTable
        cases readTable
      rw [List.takeWhile_cons_of_pos (by simp [inside])]
      cases read : room.readTableLine there.file line with
      | error e =>
        rw [read] at readTable
        cases readTable
      | ok fields =>
        rw [read] at readTable
        cases readTable
        have gains := @gains_readRest room { session with cursor := next, events } after
          logged.value table record (Room.handId_ne_nil accepted) ready body
        rwa [onNext.ahead_eq] at gains

/-- The hand that a search has found brings whom its block tells of, and the cursor is
left inside that block. -/
theorem gains_readHand_of_seek {header : Text} {ahead : List Text} {record : HandRecord}
    {there : Cursor} (ready : session.roster.site ≠ [])
    (hrest : session.cursor.rest.dropWhile (fun line => !room.isHandStart line) =
      header :: ahead)
    (sought : session.cursor.seek room.isHandStart = (true, there))
    (run : (readHand room).runFrom { session with cursor := there } = (.ok record, after)) :
    session.roster.Gains (BodyLine.mentions (told
        (header :: ahead.takeWhile fun line => !room.isHandStart line))) after.roster ∧
      Behind room session (ahead.dropWhile fun line => !room.isHandStart line) after := by
  constructor
  · obtain ⟨-, standing⟩ := Cursor.dropWhile_rest_of_seek hrest sought
    exact @gains_readHand room { session with cursor := there } after header ahead record ready
      standing run
  · obtain ⟨place, result, last, found, same, -, behind⟩ := runFrom_readHand_of_seek ready hrest
    rw [sought] at found
    cases found
    rw [run] at same
    cases same
    exact behind record rfl

/-- The hands that are left bring whom their blocks tell of. -/
theorem gains_readOthers {bound : Nat} {game final : StakedGame}
    (ready : session.roster.site ≠ [])
    (enough : (blocks room.isHandStart session.cursor.rest).length ≤ bound)
    (run : (readOthers room bound game).runFrom session = (.ok final, after)) :
    session.roster.Gains (BodyLine.mentions
      ((blocks room.isHandStart session.cursor.rest).flatMap told)) after.roster := by
  induction bound generalizing session game with
  | zero =>
    rw [List.eq_nil_of_length_eq_zero (Nat.le_zero.1 enough)]
    cases run
    exact .refl after.roster
  | succ bound ih =>
    rw [readOthers, runFrom_bind_of_ok (runFrom_seek _ session)] at run
    cases hrest : session.cursor.rest.dropWhile fun line => !room.isHandStart line with
    | nil =>
      rw [Cursor.seek_of_none hrest] at run
      rw [blocks_eq_nil hrest]
      cases run
      exact .refl session.roster
    | cons header ahead =>
      obtain ⟨-, found⟩ := blocks_of_dropWhile_cons hrest
      obtain ⟨there, sought, -⟩ := Cursor.seek_of_some hrest
      rw [sought, if_pos rfl] at run
      obtain ⟨record, between, first, rest⟩ := exists_of_runFrom_bind run
      obtain ⟨gains, left⟩ := gains_readHand_of_seek ready hrest sought first
      rw [found, List.length_cons] at enough
      have fewer : (blocks room.isHandStart between.cursor.rest).length ≤ bound := by
        rw [left.blocks_rest]
        omega
      have others := ih (left.site ▸ ready) fewer rest
      rw [left.blocks_rest] at others
      rw [found, List.flatMap_cons, BodyLine.mentions, List.filterMap_append]
      exact gains.trans others

/-- A file brings whom its blocks tell of. -/
theorem gains_readGame {stem : Text} {game : StakedGame} (ready : session.roster.site ≠ [])
    (run : (readGame room stem).runFrom session = (.ok (some game), after)) :
    session.roster.Gains (BodyLine.mentions
      ((blocks room.isHandStart session.cursor.rest).flatMap told)) after.roster := by
  rw [readGame, runFrom_bind_of_ok (runFrom_get session),
    runFrom_bind_of_ok (runFrom_seek _ session)] at run
  cases hrest : session.cursor.rest.dropWhile fun line => !room.isHandStart line with
  | nil =>
    rw [Cursor.seek_of_none hrest] at run
    cases run
  | cons header ahead =>
    obtain ⟨-, found⟩ := blocks_of_dropWhile_cons hrest
    obtain ⟨there, sought, -⟩ := Cursor.seek_of_some hrest
    rw [sought, if_pos rfl] at run
    obtain ⟨⟨hand, data⟩, between, first, rest⟩ := exists_of_runFrom_bind run
    obtain ⟨record, last, read, told⟩ := exists_of_runFrom_bind first
    cases told
    obtain ⟨gains, left⟩ := gains_readHand_of_seek ready hrest sought read
    dsimp only at rest
    cases described : (GameData.gather room record.header record.table stem).emptyGame
        room.siteName with
    | error e =>
      rw [described] at rest
      cases rest
    | ok empty =>
      have standing : (Reading.ofModel session.cursor.file (.ok empty)).runFrom between =
          (.ok empty, between) := rfl
      rw [described, runFrom_bind_of_ok standing, runFrom_bind_of_ok (runFrom_get between),
        ← bind_pure_comp] at rest
      obtain ⟨final, last, readRest, made⟩ := exists_of_runFrom_bind rest
      cases made
      have others := gains_readOthers (left.site ▸ ready) left.length_blocks_le readRest
      rw [left.blocks_rest] at others
      rw [found, List.flatMap_cons, BodyLine.mentions, List.filterMap_append]
      exact gains.trans others

end History

end HandHistory
