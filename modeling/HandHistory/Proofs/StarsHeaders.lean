import HandHistory.Proofs.WrittenHeaders

/-!
# Headers of PokerStars

The identifier and the blinds of a written hand are told apart by single characters, the
date by the last hyphen between spaces. Variant and limit are searched in the whole line in
front of the date. What stands there beside the label names neither: it is without the
letter `o`, which every spelling has, or it is `PokerStars Hand` or `Tournament`.
-/

namespace HandHistory.Written

open Text

/-! ## What no date begins with -/

theorem exists_words_cons {c : Char} (solid : isBlank c = false) (rest : Text) :
    ∃ word others, words (c :: rest) = (c :: word) :: others := by
  rw [words, fieldsBy, if_neg (by simp [solid])]
  cases fieldsBy isBlank rest with
  | nil => exact ⟨[], [], rfl⟩
  | cons piece pieces => exact ⟨piece, pieces.filter fun word => !word.isEmpty, rfl⟩

section

variable (dates : Timestamp.Reader)

/-- A date is no date without a year in its first word. -/
theorem leading?_eq_none {text word : Text} {others : List Text}
    (cut : words text = word :: others)
    (noYear : ∀ time, Timestamp.opensWithYear (word ++ ' ' :: time) = false) :
    Timestamp.leading? dates text = none := by
  rw [Timestamp.leading?, cut]
  cases others with
  | nil => rfl
  | cons time others =>
    refine Option.eq_none_iff_forall_ne_some.2 fun t read => ?_
    have opens := dates.opensWithYear_of_read _ t read
    rw [noYear] at opens
    cases opens

theorem leading?_letter (rest : Text) : Timestamp.leading? dates ('T' :: rest) = none := by
  obtain ⟨word, others, cut⟩ := exists_words_cons (by decide : isBlank 'T' = false) rest
  exact leading?_eq_none dates cut fun time => by
    rw [List.cons_append, Timestamp.opensWithYear, List.dropWhile_cons_of_neg (by decide)]
    rfl

/-- The sign of a date stands at its year. -/
theorem leading?_hyphen (rest : Text) : Timestamp.leading? dates ('-' :: ' ' :: rest) = none := by
  have cut : words ('-' :: ' ' :: rest) = ['-'] :: words rest := words_append ['-'] rest
  exact leading?_eq_none dates cut fun time => rfl

end

/-! ## The parts of a line -/

/-- A line of PokerStars in front of its date: an identifier, and what is played. -/
def starsBody (id : Digits) (game : Text) : Text :=
  "PokerStars Hand #".toList ++ (id.text ++ ':' :: game)

def starsLine (id : Digits) (game date : Text) : Text :=
  starsBody id game ++ (" - ".toList ++ date)

variable {dates : Timestamp.Reader} (id : Digits) (deal : Deal dates)

theorem between?_starsId (game date : Text) :
    between? "#" ":" (starsLine id game date) = some id.text := by
  have shape : starsLine id game date = "PokerStars Hand ".toList ++
      ("#".toList ++ (id.text ++ (":".toList ++ (game ++ (" - ".toList ++ date))))) := by
    unfold starsLine starsBody
    simp
  have opened : cut? "#" (starsLine id game date) = some ("PokerStars Hand ".toList,
      id.text ++ (":".toList ++ (game ++ (" - ".toList ++ date)))) := by
    rw [shape]
    exact cut?_of_not_mem (by decide) [] _
  exact between?_of_cut? opened (cut?_of_not_mem (id.not_mem (by decide)) [] _)

/-- No date brings forth a hyphen between spaces with what stands in front of it. -/
theorem Deal.cutLast?_date (front : Text) :
    cutLast? " - " (front ++ (" - ".toList ++ deal.date)) = some (front, deal.date) := by
  have inside : cutLast? " - " deal.date = none := cutLast?_eq_none deal.single
  have overlap : stripStart? " - " (' ' :: deal.date) = none := by
    refine stripStart?_eq_none fun rest same => ?_
    have begins : deal.date = '-' :: ' ' :: rest := (List.cons.inj same).2
    have dated := deal.dated
    rw [begins, leading?_hyphen] at dated
    cases dated
  have here : cutLast? " - " (" - ".toList ++ deal.date) = some ([], deal.date) := by
    show cutLast? " - " (' ' :: '-' :: ' ' :: deal.date) = _
    rw [cutLast?, cutLast?, cutLast?, inside, overlap]
    rfl
  simpa using cutLast?_append here front

theorem readHeader_starsLine (file game : Text) :
    PokerStars.readHeader dates file (starsLine id game deal.date) =
      .ok (PokerStars.header id.text (starsBody id game) deal.start <$>
        PokerStars.tournament? (starsLine id game deal.date)) := by
  have named : id.text.isEmpty = false := by simpa using id.named
  have handId : ((between? "#" ":" (starsLine id game deal.date)).map trimBlank).getD [] =
      id.text := by
    rw [between?_starsId]
    exact id.toIdentifier.trimBlank_text
  have found : cutLast? " - " (starsLine id game deal.date) =
      some (starsBody id game, deal.date) := deal.cutLast?_date _
  simp only [PokerStars.readHeader, handId, named, found, deal.dated]
  rfl

/-- Blinds at the end of a body are its blinds. -/
theorem blinds_append (blinds : Blinds) (front : Text) :
    PokerStars.blinds (front ++ '(' :: (blinds.text ++ [')'])) =
      (blinds.small.value, blinds.big.value) := by
  have noOpening := blinds.not_mem (c := '(') (by decide) (by decide) (by decide)
  have noClosing := blinds.not_mem (c := ')') (by decide) (by decide) (by decide)
  have behind : '(' ∉ blinds.text ++ [')'] := by simp [noOpening]
  have opened : cutLast? "(" (front ++ '(' :: (blinds.text ++ [')'])) =
      some (front, blinds.text ++ [')']) := cutLast?_of_not_mem behind front
  have closed : cut? ")" (blinds.text ++ [')']) = some (blinds.text, []) :=
    cut?_of_not_mem noClosing [] []
  rw [PokerStars.blinds, opened]
  dsimp only
  rw [closed]
  exact blinds.blinds_text

/-- A body that has the blinds and the label of a deal is read as the deal. -/
theorem header_body {body : Text}
    (blinds : PokerStars.blinds body = (deal.blinds.small.value, deal.blinds.big.value))
    (label : Variant.ofLabel body = .ofLabel deal.label.text ∧
      Limit.ofLabel body = .ofLabel deal.label.text)
    (handId : Text) (tournament? : Option PokerStars.Tournament) :
    PokerStars.header handId body deal.start tournament? =
      { deal.header handId with
        kind := if tournament?.isSome then .tournament else .cash
        tournamentId? := tournament?.map PokerStars.Tournament.id
        tournamentName? := tournament?.map fun tournament => "Tournament " ++ tournament.id
        buyIn := tournament?.elim 0 PokerStars.Tournament.buyIn
        level := tournament?.elim 0 PokerStars.Tournament.level } := by
  rw [PokerStars.header, blinds, label.1, label.2]
  rfl

/-! ## Spellings -/

/-- What a label is searched for. -/
def spellings : List Text :=
  ["omaha5".toList, "5 card omaha".toList, "omaha 5".toList, "omaha".toList, "holdem".toList,
    "hold'em".toList, "no limit".toList, "pot limit".toList]

/-- What counts of a character of a label; limits have spaces for hyphens. -/
def plain (spaced : Bool) (c : Char) : Char :=
  if spaced && c.toLower == '-' then ' ' else c.toLower

theorem lowerAscii_eq_map (text : Text) : lowerAscii text = text.map (plain false) := rfl

theorem replace_lowerAscii_eq_map (text : Text) :
    replace '-' ' ' (lowerAscii text) = text.map (plain true) := by
  simp [replace, lowerAscii, plain, Function.comp_def]

/-- Two texts in which the same spellings are found have one variant and one limit. -/
theorem ofLabel_eq {text label : Text}
    (same : ∀ spaced, ∀ spelling ∈ spellings,
      has spelling (text.map (plain spaced)) = has spelling (label.map (plain spaced))) :
    Variant.ofLabel text = .ofLabel label ∧ Limit.ofLabel text = .ofLabel label := by
  have lower := same false
  have spaced := same true
  simp only [spellings, List.forall_mem_cons] at lower spaced
  obtain ⟨omaha5, cardOmaha, omahaFive, omaha, holdem, holdEm, -⟩ := lower
  obtain ⟨-, -, -, -, -, -, noLimit, potLimit, -⟩ := spaced
  constructor
  · unfold Variant.ofLabel
    dsimp only [lowerAscii_eq_map]
    rw [omaha5, cardOmaha, omahaFive, omaha, holdem, holdEm]
  · unfold Limit.ofLabel
    dsimp only
    rw [replace_lowerAscii_eq_map, replace_lowerAscii_eq_map, noLimit, potLimit]

theorem plain_eq_o {spaced : Bool} {c : Char} (same : plain spaced c = 'o') :
    c = 'o' ∨ c = 'O' := by
  have lower : c.toLower = 'o' := by
    rw [plain] at same
    split at same
    · cases same
    · exact same
  rw [Char.toLower] at lower
  split at lower
  · next range =>
    right
    have high : c.toNat ≤ 90 := range.2
    have word : (c.toNat + 32) % 4294967296 = 111 := by
      simpa using congrArg UInt32.toNat (congrArg Char.val lower)
    have value : c.val.toNat = 'O'.val.toNat := show c.toNat = 79 by omega
    exact Char.ext (UInt32.toNat.inj value)
  · exact Or.inl lower

theorem o_not_mem_map {text : Text} (lower : 'o' ∉ text) (upper : 'O' ∉ text) (spaced : Bool) :
    'o' ∉ text.map (plain spaced) := by
  intro inside
  obtain ⟨c, hc, same⟩ := List.mem_map.1 inside
  rcases plain_eq_o same with rfl | rfl
  · exact lower hc
  · exact upper hc

theorem map_plain (spaced : Bool) (front : Text) (c : Char) (rest : Text) :
    (front ++ c :: rest).map (plain spaced) =
      front.map (plain spaced) ++ plain spaced c :: rest.map (plain spaced) := by
  rw [List.map_append, List.map_cons]

section

variable {spelling : Text} (spelled : spelling ∈ spellings)
include spelled

theorem has_spelling_eq_false {text : Text} (absent : 'o' ∉ text) : has spelling text = false := by
  have letter : ∀ spelling ∈ spellings, 'o' ∈ spelling := by decide
  exact has_eq_false_of_not_mem (letter spelling spelled) absent

theorem not_mem_spelling {c : Char} (other : c ∉ "' 5acdehilmnoprt".toList) : c ∉ spelling := by
  have letters : ∀ spelling ∈ spellings, spelling ⊆ "' 5acdehilmnoprt".toList := by decide
  exact fun inside => other (letters spelling spelled inside)

theorem head?_spelling {c : Char} (other : c ∉ "5hnop".toList) : spelling.head? ≠ some c := by
  have heads : ∀ spelling ∈ spellings, spelling.head?.toList ⊆ "5hnop".toList := by decide
  exact fun first => other (heads spelling spelled (by simp [first]))

theorem getLast?_spelling {c : Char} (other : c ∉ "5amt".toList) : spelling.getLast? ≠ some c := by
  have lasts : ∀ spelling ∈ spellings, spelling.getLast?.toList ⊆ "5amt".toList := by decide
  exact fun last => other (lasts spelling spelled (by simp [last]))

/-- A spelling in a text around a label is one in the label, when it can neither begin in
front of the label nor end behind it. -/
theorem has_spelling {spaced : Bool} {front lead label tail rest : Text} {opening closing : Char}
    (noOpening : opening ∉ spelling) (noClosing : closing ∉ spelling)
    (before : has spelling front = false) (head : lead.map (plain spaced) ⊆ ['d', ' '])
    (last : tail.map (plain spaced) ⊆ [' ', '-', 'l', 'e']) (behind : 'o' ∉ rest) :
    has spelling (front ++ opening :: ((lead ++ label ++ tail).map (plain spaced) ++
      closing :: rest)) = has spelling (label.map (plain spaced)) := by
  have leads : ∀ c ∈ lead.map (plain spaced), spelling.head? ≠ some c := by
    intro c inside
    rcases List.mem_pair.1 (head inside) with rfl | rfl <;> exact head?_spelling spelled (by decide)
  have tails : ∀ c ∈ tail.map (plain spaced), spelling.getLast? ≠ some c := by
    intro c inside
    have wanted := last inside
    simp only [List.mem_cons, List.not_mem_nil, or_false] at wanted
    rcases wanted with rfl | rfl | rfl | rfl <;> exact getLast?_spelling spelled (by decide)
  rw [has_between noOpening noClosing before (has_spelling_eq_false spelled behind),
    List.map_append, List.map_append, has_append_of_last tails, has_append_of_head leads]

/-- The front of a line has the letter, but no spelling. -/
theorem has_spelling_start (spaced : Bool) :
    has spelling (("PokerStars Hand #".toList ++ id.text).map (plain spaced)) = false := by
  have words : ∀ spelling ∈ spellings, has spelling "pokerstars hand " = false := by decide
  have lowered : "PokerStars Hand #".toList.map (plain spaced) =
      "pokerstars hand ".toList ++ ['#'] := by
    cases spaced <;> decide
  have digits : 'o' ∉ id.text.map (plain spaced) :=
    o_not_mem_map (id.not_mem (by decide)) (id.not_mem (by decide)) spaced
  rw [List.map_append, lowered, List.append_assoc, List.singleton_append,
    has_append_cons (not_mem_spelling spelled (by decide)), words spelling spelled,
    has_spelling_eq_false spelled digits]
  rfl

end

theorem announcement_not_in_start :
    has " Tournament #" ("PokerStars Hand #".toList ++ id.text) = false := by
  have absent : 'T' ∉ "PokerStars Hand #".toList ++ id.text := by
    have digits := id.not_mem (c := 'T') (by decide)
    simp [digits]
  exact has_eq_false_of_not_mem (by decide) absent

/-! ## Cash -/

namespace Deal

def starsCash : Text := "  ".toList ++ deal.game

theorem starsBody_starsCash : starsBody id deal.starsCash =
    ("PokerStars Hand #".toList ++ id.text) ++ ':' ::
      ("  ".toList ++ deal.label.text ++ " ".toList ++ '(' :: (deal.blinds.text ++ [')'])) := by
  unfold starsBody starsCash game
  simp

theorem o_not_mem_group (spaced : Bool) :
    'o' ∉ (deal.blinds.text ++ [')']).map (plain spaced) := by
  have lower := deal.blinds.not_mem (c := 'o') (by decide) (by decide) (by decide)
  have upper := deal.blinds.not_mem (c := 'O') (by decide) (by decide) (by decide)
  exact o_not_mem_map (by simp [lower]) (by simp [upper]) spaced

/-- What is played is read from the label alone. -/
theorem ofLabel_starsCash :
    Variant.ofLabel (starsBody id deal.starsCash) = .ofLabel deal.label.text ∧
      Limit.ofLabel (starsBody id deal.starsCash) = .ofLabel deal.label.text := by
  refine ofLabel_eq fun spaced spelling spelled => ?_
  have lead : "  ".toList.map (plain spaced) ⊆ ['d', ' '] := by cases spaced <;> decide
  have tail : " ".toList.map (plain spaced) ⊆ [' ', '-', 'l', 'e'] := by cases spaced <;> decide
  have colon : plain spaced ':' = ':' := by cases spaced <;> decide
  have parenthesis : plain spaced '(' = '(' := by cases spaced <;> decide
  have noColon : ':' ∉ spelling := not_mem_spelling spelled (by decide)
  have noParenthesis : '(' ∉ spelling := not_mem_spelling spelled (by decide)
  rw [starsBody_starsCash, map_plain spaced _ ':', map_plain spaced _ '(', colon, parenthesis]
  exact has_spelling spelled noColon noParenthesis (has_spelling_start id spelled spaced) lead tail
    (deal.o_not_mem_group spaced)

theorem blinds_starsCash : PokerStars.blinds (starsBody id deal.starsCash) =
    (deal.blinds.small.value, deal.blinds.big.value) := by
  have shape : starsBody id deal.starsCash = ("PokerStars Hand #".toList ++
      (id.text ++ ':' :: ("  ".toList ++ (deal.label.text ++ " ".toList)))) ++
        '(' :: (deal.blinds.text ++ [')']) := by
    rw [starsBody_starsCash]
    simp
  rw [shape, blinds_append]

/-- A hand is a cash hand unless its date announces a tournament. -/
theorem tournament?_starsCash (clear : has " Tournament #" deal.date = false) :
    PokerStars.tournament? (starsLine id deal.starsCash deal.date) = pure none := by
  have shape : starsLine id deal.starsCash deal.date =
      ("PokerStars Hand #".toList ++ id.text) ++ ':' ::
        (("  ".toList ++ deal.label.text ++ " ".toList) ++ '(' ::
          ((deal.blinds.text ++ [')', ' ']) ++ '-' :: ' ' :: deal.date)) := by
    rw [starsLine, starsBody_starsCash]
    simp
  have start := announcement_not_in_start id
  have label : '#' ∉ "  ".toList ++ deal.label.text ++ " ".toList := by
    have inside := deal.label.not_mem (c := '#') (by decide) (by decide)
    simp [inside]
  have group : '#' ∉ deal.blinds.text ++ [')', ' '] := by
    have inside := deal.blinds.not_mem (c := '#') (by decide) (by decide) (by decide)
    simp [inside]
  have date : has " Tournament #" (' ' :: deal.date) = false := by
    cases announced : has " Tournament #" (' ' :: deal.date) with
    | false => rfl
    | true =>
      rw [has_eq_true_iff, List.infix_cons_iff] at announced
      rcases announced with ⟨rest, same⟩ | inside
      · have begins : 'T' :: ("ournament #".toList ++ rest) = deal.date := (List.cons.inj same).2
        have dated := deal.dated
        rw [← begins, leading?_letter] at dated
        cases dated
      · rw [← has_eq_true_iff, clear] at inside
        cases inside
  have absent : has " Tournament #" (starsLine id deal.starsCash deal.date) = false := by
    rw [shape, has_append_cons (by decide), has_append_cons (by decide),
      has_append_cons (by decide), start, has_eq_false_of_not_mem (by decide) label,
      has_eq_false_of_not_mem (by decide) group, date]
    rfl
  have nowhere : cut? " Tournament #" (starsLine id deal.starsCash deal.date) = none :=
    Option.isNone_iff_eq_none.1 (Option.isSome_eq_false_iff.1 absent)
  rw [PokerStars.tournament?, nowhere]

end Deal

/-! ## Tournaments -/

/-- What PokerStars writes of a tournament. -/
structure StarsTournament where
  id : Digits
  buyIn : BuyIn
  level : RomanLetters
  solid : ∀ c ∈ buyIn.text, isBlank c = false

namespace StarsTournament

variable (tournament : StarsTournament)

/-- The identifier of a tournament, and its buy-in. -/
def details : Text := tournament.id.text ++ (", ".toList ++ tournament.buyIn.text)

/-- The level of a tournament, and the blinds. -/
def stage : Text := tournament.level.text ++ (" (".toList ++ (deal.blinds.text ++ [')']))

def game : Text := " Tournament #".toList ++ (tournament.details ++
  (" USD ".toList ++ (deal.label.text ++ (" - Level ".toList ++ tournament.stage deal))))

theorem not_mem_details {c : Char} (noSeparator : c ∉ ", +".toList) (solid : isBlank c = false)
    (noDigit : Numeral.isDigit c = false) (other : c ∉ ['$', '€', '£', ',', '.']) :
    c ∉ tournament.details := by
  have inId := tournament.id.not_mem noDigit
  have inBuyIn := tournament.buyIn.not_mem (by rintro rfl; simp at noSeparator) solid noDigit other
  have between : c ∉ ", ".toList := fun inside => noSeparator (List.mem_append_left ['+'] inside)
  simp only [details, List.mem_append, inId, inBuyIn, between, or_self, not_false_eq_true]

/-! ### Variant and limit -/

theorem has_spelling_announcement {spelling : Text} (spelled : spelling ∈ spellings)
    (spaced : Bool) : has spelling ((" Tournament ".toList ++
      '#' :: (tournament.details ++ " U".toList)).map (plain spaced)) = false := by
  have words : ∀ spelling ∈ spellings, has spelling " tournament " = false := by decide
  have lowered : " Tournament ".toList.map (plain spaced) = " tournament ".toList := by
    cases spaced <;> decide
  have hash : plain spaced '#' = '#' := by cases spaced <;> decide
  have details : 'o' ∉ (tournament.details ++ " U".toList).map (plain spaced) := by
    have lower := tournament.not_mem_details (c := 'o') (by decide) (by decide) (by decide)
      (by decide)
    have upper := tournament.not_mem_details (c := 'O') (by decide) (by decide) (by decide)
      (by decide)
    exact o_not_mem_map (by simp [lower]) (by simp [upper]) spaced
  rw [map_plain, hash, has_append_cons (not_mem_spelling spelled (by decide)), lowered,
    words spelling spelled, has_spelling_eq_false spelled details]
  rfl

theorem o_not_mem_stage (spaced : Bool) :
    'o' ∉ ("el ".toList ++ tournament.stage deal).map (plain spaced) := by
  have shape : "el ".toList ++ tournament.stage deal =
      ("el ".toList ++ (tournament.level.text ++ " (".toList)) ++ (deal.blinds.text ++ [')']) := by
    unfold stage
    simp
  have level : 'o' ∉ ("el ".toList ++ (tournament.level.text ++ " (".toList)).map
      (plain spaced) := by
    have lower := tournament.level.not_mem (c := 'o') (by decide)
    have upper := tournament.level.not_mem (c := 'O') (by decide)
    exact o_not_mem_map (by simp [lower]) (by simp [upper]) spaced
  rw [shape, List.map_append, List.mem_append, not_or]
  exact ⟨level, deal.o_not_mem_group spaced⟩

/-- What is played is read from the label alone. -/
theorem ofLabel_game :
    Variant.ofLabel (starsBody id (tournament.game deal)) = .ofLabel deal.label.text ∧
      Limit.ofLabel (starsBody id (tournament.game deal)) = .ofLabel deal.label.text := by
  have shape : starsBody id (tournament.game deal) =
      (("PokerStars Hand #".toList ++ id.text) ++
        ':' :: (" Tournament ".toList ++ '#' :: (tournament.details ++ " U".toList))) ++
      'S' :: ("D ".toList ++ deal.label.text ++ " - Le".toList ++
        'v' :: ("el ".toList ++ tournament.stage deal)) := by
    unfold starsBody game
    simp
  refine ofLabel_eq fun spaced spelling spelled => ?_
  have colon : plain spaced ':' = ':' := by cases spaced <;> decide
  have opening : plain spaced 'S' = 's' := by cases spaced <;> decide
  have closing : plain spaced 'v' = 'v' := by cases spaced <;> decide
  have lead : "D ".toList.map (plain spaced) ⊆ ['d', ' '] := by cases spaced <;> decide
  have tail : " - Le".toList.map (plain spaced) ⊆ [' ', '-', 'l', 'e'] := by
    cases spaced <;> decide
  have front : has spelling ((("PokerStars Hand #".toList ++ id.text) ++ ':' ::
      (" Tournament ".toList ++ '#' :: (tournament.details ++ " U".toList))).map
        (plain spaced)) = false := by
    rw [map_plain, colon, has_append_cons (not_mem_spelling spelled (by decide)),
      has_spelling_start id spelled, tournament.has_spelling_announcement spelled]
    rfl
  have noS : 's' ∉ spelling := not_mem_spelling spelled (by decide)
  have noV : 'v' ∉ spelling := not_mem_spelling spelled (by decide)
  rw [shape, map_plain spaced _ 'S', map_plain spaced _ 'v', opening, closing]
  exact has_spelling spelled noS noV front lead tail (tournament.o_not_mem_stage deal spaced)

theorem blinds_game : PokerStars.blinds (starsBody id (tournament.game deal)) =
    (deal.blinds.small.value, deal.blinds.big.value) := by
  have shape : starsBody id (tournament.game deal) = ("PokerStars Hand #".toList ++
      (id.text ++ ':' :: (" Tournament #".toList ++ (tournament.details ++
        (" USD ".toList ++ (deal.label.text ++ (" - Level ".toList ++
          (tournament.level.text ++ " ".toList)))))))) ++ '(' :: (deal.blinds.text ++ [')']) := by
    unfold starsBody game stage
    simp
  rw [shape, blinds_append]

/-! ### The tournament -/

theorem between?_level (date : Text) :
    between? "Level " " (" (starsLine id (tournament.game deal) date) =
      some tournament.level.text := by
  have shape : starsLine id (tournament.game deal) date =
      ("PokerStars Hand #".toList ++ id.text) ++ ':' ::
        ((" Tournament #".toList ++ (tournament.details ++ " US".toList)) ++ 'D' ::
          ((' ' :: (deal.label.text ++ [' '])) ++ '-' :: (" ".toList ++ ("Level ".toList ++
            (tournament.stage deal ++ (" - ".toList ++ date)))))) := by
    unfold starsLine starsBody game
    simp
  have start : 'L' ∉ "PokerStars Hand #".toList ++ id.text := by
    have digits := id.not_mem (c := 'L') (by decide)
    simp [digits]
  have details : 'L' ∉ " Tournament #".toList ++ (tournament.details ++ " US".toList) := by
    have inside := tournament.not_mem_details (c := 'L') (by decide) (by decide) (by decide)
      (by decide)
    simp [inside]
  have label : has "Level " (' ' :: (deal.label.text ++ [' '])) = false := by
    cases inside : has "Level " (' ' :: (deal.label.text ++ [' '])) with
    | false => rfl
    | true =>
      have level : "Level".toList <:+: "Level ".toList := ⟨[], [' '], rfl⟩
      have word := has_eq_true_iff.2 (level.trans (has_eq_true_iff.1 inside))
      rw [has_cons (by decide), has_concat (by decide)] at word
      rw [← deal.label.noLevel, ← word]
      rfl
  have here : cut? "Level " (" ".toList ++ ("Level ".toList ++
      (tournament.stage deal ++ (" - ".toList ++ date)))) =
        some (" ".toList, tournament.stage deal ++ (" - ".toList ++ date)) :=
    cut?_of_not_mem (by decide) "evel ".toList _
  obtain ⟨front, opened⟩ : ∃ front, cut? "Level " (starsLine id (tournament.game deal) date) =
      some (front, tournament.stage deal ++ (" - ".toList ++ date)) := by
    rw [shape]
    refine exists_cut?_append_cons (by decide) (has_eq_false_of_not_mem (by decide) start) ?_
    refine exists_cut?_append_cons (by decide) (has_eq_false_of_not_mem (by decide) details) ?_
    exact exists_cut?_append_cons (by decide) label ⟨_, here⟩
  have closed : cut? " (" (tournament.stage deal ++ (" - ".toList ++ date)) =
      some (tournament.level.text, deal.blinds.text ++ ([')'] ++ (" - ".toList ++ date))) := by
    rw [stage, List.append_assoc, List.append_assoc, List.append_assoc]
    exact cut?_of_second (by decide) (tournament.level.not_mem (by decide)) [] _
  exact between?_of_cut? opened closed

/-- A tournament is found where it was announced. -/
theorem tournament?_game (date : Text) :
    PokerStars.tournament? (starsLine id (tournament.game deal) date) =
      pure (some { id := tournament.id.text, buyIn := tournament.buyIn.value
                   level := Numeral.Roman.value tournament.level.text }) := by
  have shape : starsLine id (tournament.game deal) date =
      ("PokerStars Hand #".toList ++ id.text) ++ ':' :: (" Tournament #".toList ++
        (tournament.id.text ++ (",".toList ++ (' ' :: (tournament.buyIn.text ++
          ' ' :: ("USD ".toList ++ (deal.label.text ++ (" - Level ".toList ++
            (tournament.stage deal ++ (" - ".toList ++ date)))))))))) := by
    unfold starsLine starsBody game details
    simp
  generalize "USD ".toList ++ (deal.label.text ++ (" - Level ".toList ++
    (tournament.stage deal ++ (" - ".toList ++ date)))) = rest at shape
  have here : ∀ rest, cut? " Tournament #" (" Tournament #".toList ++ rest) = some ([], rest) :=
    fun rest => cut?_of_not_mem (by simp : ' ' ∉ []) "Tournament #".toList rest
  obtain ⟨front, announced⟩ :
      ∃ front, cut? " Tournament #" (starsLine id (tournament.game deal) date) =
        some (front, tournament.id.text ++ (",".toList ++
          (' ' :: (tournament.buyIn.text ++ ' ' :: rest)))) := by
    rw [shape]
    exact exists_cut?_append_cons (by decide) (announcement_not_in_start id) ⟨_, here _⟩
  have comma : cut? "," (tournament.id.text ++ (",".toList ++
      (' ' :: (tournament.buyIn.text ++ ' ' :: rest)))) =
        some (tournament.id.text, ' ' :: (tournament.buyIn.text ++ ' ' :: rest)) :=
    cut?_of_not_mem (tournament.id.not_mem (by decide)) [] _
  have first : (words (' ' :: (tournament.buyIn.text ++ ' ' :: rest))).head? =
      some tournament.buyIn.text := by
    have lead : words (' ' :: (tournament.buyIn.text ++ ' ' :: rest)) =
        words (tournament.buyIn.text ++ ' ' :: rest) := words_append [] _
    rw [lead, words_append, words_eq_singleton tournament.buyIn.text_ne_nil tournament.solid]
    rfl
  have trimmedId : trimBlank tournament.id.text = tournament.id.text :=
    tournament.id.toIdentifier.trimBlank_text
  have trimmedLevel : trimBlank tournament.level.text = tournament.level.text :=
    trimBlank_eq_self tournament.level.isBlank_eq_false
  rw [PokerStars.tournament?, announced]
  dsimp only
  rw [comma, between?_level]
  dsimp only [Option.getD_some, Option.elim_some]
  rw [first, Option.elim_some, tournament.buyIn.buyIn_text, trimmedId, trimmedLevel]
  rfl

end StarsTournament

end HandHistory.Written
