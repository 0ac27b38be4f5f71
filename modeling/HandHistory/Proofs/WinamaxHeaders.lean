import HandHistory.Proofs.WrittenHeaders

/-!
# Headers of Winamax

The identifier of a written hand is found behind the front of the line, whatever the name
of the tournament in that front; behind it, game and date come apart at the hyphens, for
no label and no blinds have one.
-/

namespace HandHistory.Written

open Text

/-- The name of a tournament does not hold what stands around it. -/
structure TournamentName where
  text : Text
  noQuote : '"' ∉ text
  noBuyIn : has "buyIn: " text = false
  noLevel : has "level: " text = false
  noHandId : has "HandId: #" text = false

/-- What Winamax writes of a tournament. -/
def tournamentText (name : TournamentName) (buyIn : BuyIn) (level : Digits) : Text :=
  "Tournament \"".toList ++ (name.text ++ ("\" buyIn: ".toList ++
    (buyIn.text ++ (" level: ".toList ++ level.text))))

/-- The front of a line of Winamax, up to the identifier. -/
def winamaxFront (kind : Text) : Text := "Winamax Poker - ".toList ++ (kind ++ " - ".toList)

/-- The rest of a line of Winamax, from the identifier on. -/
def winamaxRest {dates : Timestamp.Reader} (id : Text) (deal : Deal dates) : Text :=
  id ++ (" - ".toList ++ (deal.game ++ (" - ".toList ++ deal.date)))

def winamaxLine {dates : Timestamp.Reader} (kind id : Text) (deal : Deal dates) : Text :=
  winamaxFront kind ++ ("HandId: #".toList ++ winamaxRest id deal)

variable {dates : Timestamp.Reader} (deal : Deal dates)

theorem Deal.hyphen_not_mem_game : '-' ∉ deal.game := by
  have label := deal.label.not_mem (c := '-') (by decide) (by decide)
  have blinds := deal.blinds.not_mem (c := '-') (by decide) (by decide) (by decide)
  simp [Deal.game, label, blinds]

theorem cut?_winamaxFront {kind : Text} (absent : has "HandId: #" kind = false) (rest : Text) :
    cut? "HandId: #" (winamaxFront kind ++ ("HandId: #".toList ++ rest)) =
      some (winamaxFront kind, rest) := by
  have shape : winamaxFront kind ++ ("HandId: #".toList ++ rest) = "Winamax Poker ".toList ++ '-' ::
      ((' ' :: (kind ++ [' '])) ++ '-' :: ([' '] ++ ("HandId: #".toList ++ rest))) := by
    unfold winamaxFront
    simp
  have middle : has "HandId: #" (' ' :: (kind ++ [' '])) = false := by
    rw [has_cons (by decide), has_concat (by decide), absent]
  have last : cut? "HandId: #" ([' '] ++ ("HandId: #".toList ++ rest)) =
      some ([' '], rest) :=
    cut?_of_not_mem (by decide) "andId: #".toList rest
  rw [shape, cut?_append_cons (by decide) (by decide), cut?_append_cons (by decide) middle, last]
  unfold winamaxFront
  simp

/-- Behind the identifier stand the identifier, the game and the date. -/
theorem Deal.split_winamaxRest (id : Identifier) :
    split " - " (winamaxRest id.text deal) = [id.text, deal.game, deal.date] := by
  have first : cut? " - " (winamaxRest id.text deal) =
      some (id.text, deal.game ++ (" - ".toList ++ deal.date)) :=
    cut?_of_not_mem id.space_not_mem "- ".toList _
  have second : cut? " - " (deal.game ++ (" - ".toList ++ deal.date)) =
      some (deal.game, deal.date) :=
    cut?_of_second (by decide) deal.hyphen_not_mem_game [' '] deal.date
  have third : cut? " - " deal.date = none :=
    Option.isNone_iff_eq_none.1 (Option.isSome_eq_false_iff.1 deal.single)
  rw [split_of_cut? (by decide) first, split_of_cut? (by decide) second,
    split_of_none (by decide) third]

/-- The game is told apart into label and blinds. -/
theorem header_game (handId : Text) (tournament? : Option Winamax.Tournament) :
    Winamax.header handId deal.game deal.start tournament? =
      { deal.header handId with
        kind := if tournament?.isSome then .tournament else .cash
        tournamentId? := tournament?.map fun _ => before "-" handId
        tournamentName? := tournament?.bind Winamax.Tournament.name?
        buyIn := tournament?.elim 0 Winamax.Tournament.buyIn
        level := tournament?.elim 0 Winamax.Tournament.level } := by
  have parenthesis : '(' ∉ deal.label.text := deal.label.not_mem (by decide) (by decide)
  have label : before " (" deal.game = deal.label.text := by
    have found : cut? " (" deal.game = some (deal.label.text, deal.blinds.text ++ [')']) :=
      cut?_of_second (by decide) parenthesis [] _
    rw [before, found]
    rfl
  have group : between? "(" ")" deal.game = some deal.blinds.text := by
    have opened : cut? "(" deal.game =
        some (deal.label.text ++ [' '], deal.blinds.text ++ [')']) := by
      have shape : deal.game = (deal.label.text ++ [' ']) ++
          (['('] ++ (deal.blinds.text ++ [')'])) := by
        unfold Deal.game
        simp
      have nowhere : '(' ∉ deal.label.text ++ [' '] := by simp [parenthesis]
      rw [shape]
      exact cut?_of_not_mem nowhere [] _
    have closed : cut? ")" (deal.blinds.text ++ [')']) = some (deal.blinds.text, []) :=
      cut?_of_not_mem (deal.blinds.not_mem (by decide) (by decide) (by decide)) [] []
    exact between?_of_cut? opened closed
  rw [Winamax.header, label, group, Option.map_some, deal.blinds.blinds_text]
  rfl

theorem readHeader_winamaxLine (file : Text) {kind : Text} (absent : has "HandId: #" kind = false)
    (id : Identifier) : Winamax.readHeader dates file (winamaxLine kind id.text deal) =
      .ok (Winamax.header id.text deal.game deal.start <$>
        Winamax.tournament? (winamaxFront kind)) := by
  have named : id.text.isEmpty = false := by simpa using id.named
  rw [Winamax.readHeader, winamaxLine, cut?_winamaxFront absent]
  dsimp only
  rw [deal.split_winamaxRest id]
  dsimp only
  rw [id.trimBlank_text, if_neg (by simp [named])]
  have date : [deal.game, deal.date].getLastD [] = deal.date := rfl
  rw [date, deal.dated]
  rfl

theorem tournament?_cash : Winamax.tournament? (winamaxFront "CashGame".toList) = pure none := by
  rw [Winamax.tournament?, if_neg (by decide)]

variable (name : TournamentName) (buyIn : BuyIn) (level : Digits)

/-- What stands between the name of a tournament and the identifier. -/
def behindName : Text :=
  " buyIn: ".toList ++ (buyIn.text ++ (" level: ".toList ++ (level.text ++ " - ".toList)))

theorem winamaxFront_tournamentText : winamaxFront (tournamentText name buyIn level) =
    "Winamax Poker - Tournament ".toList ++
      '"' :: (name.text ++ '"' :: behindName buyIn level) := by
  unfold winamaxFront tournamentText behindName
  simp

/-- An anchor without a quote that is not in the name stands behind the name. -/
theorem cut?_tournamentText {needle : Text} (noQuote : '"' ∉ needle)
    (notInFront : has needle "Winamax Poker - Tournament " = false)
    (notInName : has needle name.text = false) {rest : Text}
    (found : ∃ front, cut? needle (behindName buyIn level) = some (front, rest)) :
    ∃ front, cut? needle (winamaxFront (tournamentText name buyIn level)) = some (front, rest) := by
  rw [winamaxFront_tournamentText]
  exact exists_cut?_append_cons noQuote notInFront
    (exists_cut?_append_cons noQuote notInName found)

theorem between?_name : between? "Tournament \"" "\""
    (winamaxFront (tournamentText name buyIn level)) = some name.text := by
  have shape : winamaxFront (tournamentText name buyIn level) = "Winamax Poker - ".toList ++
      ("Tournament \"".toList ++ (name.text ++ ("\"".toList ++ behindName buyIn level))) := by
    rw [winamaxFront_tournamentText]
    simp
  have opened : cut? "Tournament \"" (winamaxFront (tournamentText name buyIn level)) =
      some ("Winamax Poker - ".toList,
        name.text ++ ("\"".toList ++ behindName buyIn level)) := by
    rw [shape]
    exact cut?_of_not_mem (by decide) "ournament \"".toList _
  exact between?_of_cut? opened (cut?_of_not_mem name.noQuote [] _)

theorem between?_buyIn : between? "buyIn: " " level: "
    (winamaxFront (tournamentText name buyIn level)) = some buyIn.text := by
  have found : cut? "buyIn: " (behindName buyIn level) =
      some ([' '], buyIn.text ++ (" level: ".toList ++ (level.text ++ " - ".toList))) :=
    cut?_of_not_mem (by decide : 'b' ∉ [' ']) "uyIn: ".toList _
  obtain ⟨front, opened⟩ := cut?_tournamentText name buyIn level (by decide) (by decide)
    name.noBuyIn ⟨_, found⟩
  have noL : 'l' ∉ buyIn.text :=
    buyIn.not_mem (by decide) (by decide) (by decide) (by decide)
  exact between?_of_cut? opened (cut?_of_second (by decide) noL "evel: ".toList _)

theorem between?_level : between? "level: " " - "
    (winamaxFront (tournamentText name buyIn level)) = some level.text := by
  have shape : behindName buyIn level = (" buyIn: ".toList ++ (buyIn.text ++ [' '])) ++
      ("level: ".toList ++ (level.text ++ " - ".toList)) := by
    unfold behindName
    simp
  have noL : 'l' ∉ " buyIn: ".toList ++ (buyIn.text ++ [' ']) := by
    have inside := buyIn.not_mem (c := 'l') (by decide) (by decide) (by decide) (by decide)
    simp [inside]
  have found : cut? "level: " (behindName buyIn level) =
      some (" buyIn: ".toList ++ (buyIn.text ++ [' ']), level.text ++ " - ".toList) := by
    rw [shape]
    exact cut?_of_not_mem noL "evel: ".toList _
  obtain ⟨front, opened⟩ := cut?_tournamentText name buyIn level (by decide) (by decide)
    name.noLevel ⟨_, found⟩
  exact between?_of_cut? opened (cut?_of_not_mem (level.not_mem (by decide)) "- ".toList [])

/-- The name, the buy-in and the level of a tournament are found where they were written. -/
theorem tournament?_tournamentText :
    Winamax.tournament? (winamaxFront (tournamentText name buyIn level)) =
      pure (some { name? := some name.text, buyIn := buyIn.value, level := level.word32 }) := by
  have announced : has "Tournament \"" (winamaxFront (tournamentText name buyIn level)) = true := by
    rw [has_eq_true_iff]
    refine ⟨"Winamax Poker - ".toList, name.text ++ '"' :: behindName buyIn level, ?_⟩
    rw [winamaxFront_tournamentText]
    simp
  have word : (Decimal.toFloat ⟨Numeral.ofDigits level.text, 0⟩).toUInt32.toNat = level.word32 :=
    Decimal.toNat_toUInt32_toFloat _
  rw [Winamax.tournament?, if_pos announced, between?_buyIn, between?_level, between?_name,
    Option.some_or, Winamax.amountOr, Winamax.amountOr, Option.elim_some, Option.elim_some,
    buyIn.buyIn_text, level.atHead_text, ← word]
  rfl

theorem handId_not_in_tournamentText :
    has "HandId: #" (tournamentText name buyIn level) = false := by
  have shape : tournamentText name buyIn level = "Tournament ".toList ++ '"' ::
      (name.text ++ '"' :: (" buyIn: ".toList ++ (buyIn.text ++
        (" level: ".toList ++ level.text)))) := by
    unfold tournamentText
    simp
  have rest : '#' ∉ " buyIn: ".toList ++ (buyIn.text ++ (" level: ".toList ++ level.text)) := by
    have inBuyIn := buyIn.not_mem (c := '#') (by decide) (by decide) (by decide) (by decide)
    have inLevel := level.not_mem (c := '#') (by decide)
    simp [inBuyIn, inLevel]
  have front : has "HandId: #" "Tournament " = false := by decide
  rw [shape, has_append_cons (by decide), has_append_cons (by decide), front, name.noHandId,
    has_eq_false_of_not_mem (by decide : '#' ∈ "HandId: #".toList) rest]
  rfl

end HandHistory.Written
