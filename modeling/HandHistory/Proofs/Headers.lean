import HandHistory.Proofs.StarsHeaders
import HandHistory.Proofs.WinamaxHeaders

/-!
# Headers are read back

A line that a room writes at the head of a hand is read as what was written: identifier and
start, blinds, variant and limit, and the tournament if there is one. Nothing in it is noted
as wrong. What reads the dates is left open; a date is whatever it takes for one.

There is one exception. PokerStars looks for a tournament in the whole line, the date
included, and a cash hand whose date says ` Tournament #` is taken for the hand of a
tournament. The identifier, the start and the game are then read as they were written all
the same.
-/

namespace HandHistory.Written

open Text

/-- The first line of a hand, as one of the rooms writes it. -/
inductive HeaderLine (dates : Timestamp.Reader) where
  | winamaxCash (id : Identifier) (deal : Deal dates)
  | winamaxTournament (id : Identifier) (name : TournamentName) (buyIn : BuyIn) (level : Digits)
      (deal : Deal dates)
  | starsCash (id : Digits) (deal : Deal dates)
  | starsTournament (id : Digits) (tournament : StarsTournament) (deal : Deal dates)

namespace HeaderLine

variable {dates : Timestamp.Reader}

def room : HeaderLine dates → Room
  | winamaxCash .. | winamaxTournament .. => .winamax
  | starsCash .. | starsTournament .. => .pokerStars

def text : HeaderLine dates → Text
  | winamaxCash id deal => winamaxLine "CashGame".toList id.text deal
  | winamaxTournament id name buyIn level deal =>
    winamaxLine (tournamentText name buyIn level) id.text deal
  | starsCash id deal => starsLine id deal.starsCash deal.date
  | starsTournament id tournament deal => starsLine id (tournament.game deal) deal.date

/-- What a line says. -/
def header : HeaderLine dates → Header
  | winamaxCash id deal => deal.header id.text
  | winamaxTournament id name buyIn level deal =>
    { deal.header id.text with
      kind := .tournament
      tournamentId? := some (before "-" id.text)
      tournamentName? := some name.text
      buyIn := buyIn.value
      level := level.word32 }
  | starsCash id deal => deal.header id.text
  | starsTournament id tournament deal =>
    { deal.header id.text with
      kind := .tournament
      tournamentId? := some tournament.id.text
      tournamentName? := some ("Tournament " ++ tournament.id.text)
      buyIn := tournament.buyIn.value
      level := Numeral.Roman.value tournament.level.text }

/-- Whether the date of a cash hand is silent about tournaments. -/
def Clear : HeaderLine dates → Prop
  | starsCash _ deal => has " Tournament #" deal.date = false
  | winamaxCash .. | winamaxTournament .. | starsTournament .. => True

end HeaderLine

/-- Two headers agree on everything but what they say of a tournament. -/
structure SameHand (read written : Header) : Prop where
  handId : read.handId = written.handId
  start : read.start = written.start
  smallBlind : read.smallBlind = written.smallBlind
  bigBlind : read.bigBlind = written.bigBlind
  variant : read.variant = written.variant
  limit : read.limit = written.limit

theorem SameHand.refl (header : Header) : SameHand header header := ⟨rfl, rfl, rfl, rfl, rfl, rfl⟩

variable {dates : Timestamp.Reader} (file : Text) (deal : Deal dates)

theorem readHeader_winamaxCash (id : Identifier) :
    Winamax.readHeader dates file (winamaxLine "CashGame".toList id.text deal) =
      .ok (pure (deal.header id.text)) := by
  rw [readHeader_winamaxLine deal file (by decide), tournament?_cash, Logged.map_pure, header_game]
  rfl

theorem readHeader_winamaxTournament (id : Identifier) (name : TournamentName) (buyIn : BuyIn)
    (level : Digits) :
    Winamax.readHeader dates file (winamaxLine (tournamentText name buyIn level) id.text deal) =
      .ok (pure (HeaderLine.winamaxTournament id name buyIn level deal).header) := by
  rw [readHeader_winamaxLine deal file (handId_not_in_tournamentText name buyIn level),
    tournament?_tournamentText, Logged.map_pure, header_game]
  rfl

/-- A line is taken for that of a tournament just if it says ` Tournament #` anywhere. -/
theorem isSome_tournament? (line : Text) :
    (PokerStars.tournament? line).value.isSome = has " Tournament #" line := by
  rw [PokerStars.tournament?, has]
  cases cut? " Tournament #" line <;> rfl

/-- A cash hand is told, whatever its date announces, and it is a cash hand for the reader
unless its date announces a tournament. -/
theorem readHeader_starsCash (id : Digits) : ∃ read,
    PokerStars.readHeader dates file (starsLine id deal.starsCash deal.date) = .ok read ∧
      SameHand read.value (deal.header id.text) ∧
      (has " Tournament #" deal.date = false → read = pure (deal.header id.text)) ∧
      (has " Tournament #" deal.date = true → read.value.kind = .tournament) := by
  have body := header_body deal (deal.blinds_starsCash id) (deal.ofLabel_starsCash id) id.text
  refine ⟨_, readHeader_starsLine id deal file deal.starsCash, ?_, fun clear => ?_,
    fun announced => ?_⟩
  · rw [Logged.value_map, body]
    exact ⟨rfl, rfl, rfl, rfl, rfl, rfl⟩
  · rw [deal.tournament?_starsCash id clear, Logged.map_pure, body]
    rfl
  · have inside : " Tournament #".toList <:+: starsLine id deal.starsCash deal.date := by
      refine (has_eq_true_iff.1 announced).trans (List.IsSuffix.isInfix ?_)
      exact ⟨starsBody id deal.starsCash ++ " - ".toList, List.append_assoc _ _ _⟩
    rw [Logged.value_map, body, isSome_tournament?, has_eq_true_iff.2 inside, if_pos rfl]

theorem readHeader_starsTournament (id : Digits) (tournament : StarsTournament) :
    PokerStars.readHeader dates file (starsLine id (tournament.game deal) deal.date) =
      .ok (pure (HeaderLine.starsTournament id tournament deal).header) := by
  rw [readHeader_starsLine, tournament.tournament?_game, Logged.map_pure,
    header_body deal (tournament.blinds_game id deal) (tournament.ofLabel_game id deal)]
  rfl

/-- Whatever reads the dates, a header is read as it was written: always what it says of the
hand, and all of it just if it is no cash hand whose date announces a tournament. -/
theorem HeaderLine.readHeader_text (line : HeaderLine dates) :
    ∃ read, line.room.readHeaderWith dates file line.text = .ok read ∧
      SameHand read.value line.header ∧ (read = pure line.header ↔ line.Clear) := by
  cases line with
  | winamaxCash id deal =>
    exact ⟨_, readHeader_winamaxCash file deal id, .refl _, iff_of_true rfl trivial⟩
  | winamaxTournament id name buyIn level deal =>
    exact ⟨_, readHeader_winamaxTournament file deal id name buyIn level, .refl _,
      iff_of_true rfl trivial⟩
  | starsCash id deal =>
    obtain ⟨read, accepted, same, whole, other⟩ := readHeader_starsCash file deal id
    refine ⟨read, accepted, same, fun told => ?_, whole⟩
    cases announced : has " Tournament #" deal.date with
    | false => exact announced
    | true =>
      have kind := other announced
      rw [told] at kind
      cases kind
  | starsTournament id tournament deal =>
    exact ⟨_, readHeader_starsTournament file deal id tournament, .refl _,
      iff_of_true rfl trivial⟩

/-- The number of a hand of PokerStars. -/
def holdemId : Digits where
  text := "125916315040".toList
  named := by decide
  digits := List.all_eq_true.1 (by decide)

/-- A cash hand that was dealt a quarter to one in the morning of Halloween. -/
def holdem (date : Text)
    (dated : Timestamp.leading? .gregorian date = some ⟨2014, 10, 31, 0, 45, 1⟩)
    (single : has " - " date = false) : Deal .gregorian :=
  let cents (digit : Char) (isDigit : Numeral.isDigit digit = true) : Chips :=
    { before := .dollar, whole := ['0'], comma := false, fraction := ['0', digit], after := .none
      whole_ne_nil := by decide
      whole_digits := List.all_eq_true.1 (by decide)
      fraction_digits := by simpa using ⟨by decide, isDigit⟩ }
  { label :=
      { words := ["Hold'em".toList, "No".toList, "Limit".toList]
        named := by decide
        spelled := by
          simp only [List.forall_mem_cons]
          exact ⟨⟨by decide, List.all_eq_true.1 (by decide)⟩,
            ⟨by decide, List.all_eq_true.1 (by decide)⟩,
            ⟨by decide, List.all_eq_true.1 (by decide)⟩, by simp⟩
        noLevel := by decide }
    blinds := { antes := [], small := cents '1' (by decide), big := cents '2' (by decide) }
    date, dated, single
    start := ⟨2014, 10, 31, 0, 45, 1⟩ }

theorem readHeader_text_holdem :
    let deal := holdem "2014/10/31 0:45:01 CET" (by decide +kernel) (by decide)
    let line := HeaderLine.starsCash holdemId deal
    line.text = "PokerStars Hand #125916315040:  ".toList ++
        "Hold'em No Limit ($0.01/$0.02) - 2014/10/31 0:45:01 CET".toList ∧
      Room.pokerStars.readHeader [] line.text = .ok (pure line.header) ∧
      line.header.variant = .holdem ∧ line.header.limit = .noLimit := by
  intro deal line
  have clear : line.Clear := show has " Tournament #" "2014/10/31 0:45:01 CET" = false by decide
  obtain ⟨read, accepted, -, whole⟩ := HeaderLine.readHeader_text [] line
  rw [whole.2 clear] at accepted
  exact ⟨by decide, accepted, by decide, by decide⟩

/-- A cash hand whose date announces a tournament is not read as it was written. -/
theorem readHeader_announced :
    let deal := holdem "2014/10/31 0:45:01 Tournament #7, $5" (by decide +kernel) (by decide)
    let line := HeaderLine.starsCash holdemId deal
    line.text = "PokerStars Hand #125916315040:  ".toList ++
        "Hold'em No Limit ($0.01/$0.02) - 2014/10/31 0:45:01 Tournament #7, $5".toList ∧
      line.header.kind = .cash ∧
      ∃ told, Room.pokerStars.readHeader [] line.text = .ok told ∧
        told.value.kind = .tournament ∧ told ≠ pure line.header := by
  intro deal line
  obtain ⟨told, accepted, -, -, other⟩ := readHeader_starsCash [] deal holdemId
  have kind := other (show has " Tournament #" "2014/10/31 0:45:01 Tournament #7, $5" = true
    by decide)
  refine ⟨by decide, rfl, told, accepted, kind, ?_⟩
  rintro rfl
  cases kind

end HandHistory.Written
