import HandHistory.Proofs.AmountReaders
import HandHistory.Room

/-!
# The amounts of a header

A header is read for the parts of its blinds, for the parts of a buy-in and, at Winamax, for a
level. This module says where these texts stand (`Room.amountTexts`), and what becomes of them:
a part of a buy-in or a level in which no number begins is read as zero and is noted
(`AmountTexts.noted`), and nothing else is. A part of the blinds without a digit is read as zero
as well, but nobody is told.
-/

namespace HandHistory

theorem Text.mem_of_mem_trimBy {drop : Char → Bool} {text : Text} {c : Char}
    (inside : c ∈ trimBy drop text) : c ∈ text := by
  have kept := List.mem_reverse.1 inside
  exact (List.dropWhile_sublist _).mem (List.mem_reverse.1 ((List.dropWhile_sublist _).mem kept))

theorem Event.lenientCount_amountDefaulted (texts : List Text) :
    lenientCount (texts.map .amountDefaulted) = texts.length := by
  rw [lenientCount, List.countP_map]
  exact List.countP_eq_length.2 fun _ _ => rfl

namespace Logged

variable {α β : Type}

theorem events_map (f : α → β) (earlier : Logged α) : (f <$> earlier).events = earlier.events :=
  List.append_nil _

end Logged

namespace Amount

open Text

/-! ## Texts in which no number begins -/

/-- Whether numbers are made of a character. -/
def inNumeral (c : Char) : Bool := Numeral.isDigit c || c == '.' || c == ','

/-- What of a part of a buy-in belongs to its number. -/
def numerals (part : Text) : Text := part.filter inNumeral

/-- Whether a text is more than blanks, and yet no number begins in what is read of it. -/
def isUnread (core : Text → Text) (text : Text) : Bool :=
  !(trimLine text).isEmpty && !opensWithNumber (core text)

/-- The number at the head of what is read of a text, or zero and a note. -/
def reading (core : Text → Text) (text : Text) : Logged Float :=
  match Decimal.leading? (replace ',' '.' (core text)) with
  | some d => pure d.toFloat
  | none => if (trimLine text).isEmpty then pure 0 else defaulted text

theorem numeric_eq (part : Text) : numeric part = replace ',' '.' (numerals part) := by
  rw [numeric, replace, List.filter_map, replace, numerals]
  congr 1
  refine List.filter_congr fun c _ => ?_
  by_cases comma : c = ','
  · subst comma
    rfl
  · simp [comma, inNumeral]

theorem buyInPart_eq (part : Text) : buyInPart part = reading numerals part := by
  rw [buyInPart, numeric_eq]
  rfl

theorem atHead_eq (text : Text) : atHead text = reading trimLine text := by
  have blank : (replace ',' '.' (trimLine text)).isEmpty = (trimLine text).isEmpty :=
    List.isEmpty_map
  rw [atHead, blank]
  rfl

variable {core : Text → Text} {text : Text}

theorem reading_of_isUnread (unread : isUnread core text = true) :
    reading core text = defaulted text := by
  obtain ⟨solid, closed⟩ := Bool.and_eq_true_iff.1 unread
  rw [Bool.not_eq_true'] at solid closed
  rw [reading, (leading?_eq_none_iff _).2 closed]
  simp [solid]

theorem events_reading :
    (reading core text).events =
      if isUnread core text then [.amountDefaulted text] else [] := by
  cases unread : isUnread core text with
  | true => rw [reading_of_isUnread unread]; rfl
  | false =>
    rw [reading]
    cases number : Decimal.leading? (replace ',' '.' (core text)) with
    | some d => rfl
    | none =>
      rw [isUnread, (leading?_eq_none_iff _).1 number, Bool.not_false, Bool.and_true,
        Bool.not_eq_false'] at unread
      simp [unread]

theorem opensWithDigit_eq_false (noDigit : ∀ c ∈ text, Numeral.isDigit c = false) :
    opensWithDigit text = false := by
  cases text with
  | nil => rfl
  | cons c rest => exact noDigit c List.mem_cons_self

/-- What has no digit is unread, unless it is blank. -/
theorem isUnread_of_noDigit (solid : trimLine text ≠ [])
    (noDigit : ∀ c ∈ core text, Numeral.isDigit c = false) : isUnread core text = true := by
  have closed : opensWithNumber (core text) = false := by
    have tail : ∀ c ∈ (core text).tail, Numeral.isDigit c = false := fun c inside =>
      noDigit c (List.mem_of_mem_tail inside)
    rw [opensWithNumber, opensWithDigit_eq_false noDigit, opensWithDigit_eq_false tail]
    simp
  simp [isUnread, solid, closed]

/-- What a part of a buy-in is read of begins where its first digit stands, whatever else than
a point or a comma stands in front of it. -/
theorem opensWithDigit_numerals {part : Text}
    (opens : opensWithDigit (part.dropWhile fun c => !inNumeral c) = true) :
    opensWithDigit (numerals part) = true := by
  induction part with
  | nil => cases opens
  | cons c part ih =>
    cases belongs : inNumeral c with
    | true =>
      rw [List.dropWhile_cons_of_neg (by simp [belongs])] at opens
      rw [numerals, List.filter_cons_of_pos belongs]
      exact opens
    | false =>
      rw [List.dropWhile_cons_of_pos (by simp [belongs])] at opens
      rw [numerals, List.filter_cons_of_neg (by simp [belongs])]
      exact ih opens

theorem isUnread_of_opensWithDigit (opens : opensWithDigit (core text) = true) :
    isUnread core text = false := by
  simp [isUnread, opensWithNumber, opens]

/-! ## Parts that are added up -/

/-- The parts of a text that may be missing. -/
def parts (separator : Char) (text? : Option Text) : List Text :=
  text?.elim [] (fields separator)

theorem value_foldlM_buyInPart (all : List Text) (sum : Float) :
    (all.foldlM (fun sum part => (sum + ·) <$> buyInPart part) sum : Logged Float).value =
      all.foldl (fun sum part => sum + (buyInPart part).value) sum := by
  induction all generalizing sum with
  | nil => rfl
  | cons part all ih => exact ih _

theorem events_foldlM_buyInPart (all : List Text) (sum : Float) :
    (all.foldlM (fun sum part => (sum + ·) <$> buyInPart part) sum : Logged Float).events =
      (all.filter (isUnread numerals)).map .amountDefaulted := by
  induction all generalizing sum with
  | nil => rfl
  | cons part all ih =>
    rw [List.foldlM_cons, Logged.events_bind, Logged.events_map, ih, buyInPart_eq, events_reading,
      List.filter_cons]
    split <;> rfl

/-- A buy-in is the sum of its parts, and each of them is noted that cannot be read. -/
theorem buyIn_parts (text? : Option Text) :
    (text?.elim (pure 0) buyIn).value =
        (parts '+' text?).foldl (fun sum part => sum + (buyInPart part).value) 0 ∧
      (text?.elim (pure 0) buyIn).events =
        ((parts '+' text?).filter (isUnread numerals)).map .amountDefaulted := by
  cases text? with
  | none => exact ⟨rfl, rfl⟩
  | some text => exact ⟨value_foldlM_buyInPart _ 0, events_foldlM_buyInPart _ 0⟩

theorem events_level (text? : Option Text) :
    (text?.elim (pure 0) atHead).events =
      (text?.toList.filter (isUnread trimLine)).map .amountDefaulted := by
  cases text? with
  | none => rfl
  | some text =>
    rw [Option.elim_some, atHead_eq, events_reading, Option.toList_some, List.filter_cons]
    split <;> rfl

/-- A part of the blinds. -/
def blind (part : Text) : Float := (ofToken? (trimBlank part)).getD 0

/-- The last two of several amounts. -/
def lastTwo (amounts : List Float) : Float × Float :=
  match amounts.reverse with
  | big :: small :: _ => (small, big)
  | [big] => (0, big)
  | [] => (0, 0)

theorem blinds_eq (group : Text) : blinds group = lastTwo ((fields '/' group).map blind) := rfl

theorem blinds_parts (group? : Option Text) :
    (group?.map blinds).getD (0, 0) = lastTwo ((parts '/' group?).map blind) := by
  cases group? with
  | none => rfl
  | some group => exact blinds_eq group

end Amount

/-! ## Where the amounts stand -/

/-- The texts of a header that are read as amounts. -/
structure AmountTexts where
  blinds : List Text
  buyIn : List Text
  level? : Option Text
  deriving DecidableEq

namespace AmountTexts

/-- The texts in which no number begins, without those of the blinds. -/
def noted (texts : AmountTexts) : List Text :=
  texts.buyIn.filter (Amount.isUnread Amount.numerals) ++
    texts.level?.toList.filter (Amount.isUnread Text.trimLine)

/-- What a header makes of its amounts, and what it notes about them. -/
structure Told (texts : AmountTexts) (told : Logged Header) : Prop where
  events : told.events = texts.noted.map .amountDefaulted
  blinds : (told.value.smallBlind, told.value.bigBlind) =
    Amount.lastTwo (texts.blinds.map Amount.blind)
  buyIn : told.value.buyIn =
    texts.buyIn.foldl (fun sum part => sum + (Amount.buyInPart part).value) 0
  level : ∀ level, texts.level? = some level →
    told.value.level = (Amount.atHead level).value.toUInt32.toNat

end AmountTexts

namespace Winamax

open Text

def buyInText? (front : Text) : Option Text :=
  if has "Tournament \"" front then
    (between? "buyIn: " " level: " front).or (between? "buyIn: " " - " front)
  else none

def levelText? (front : Text) : Option Text :=
  if has "Tournament \"" front then between? "level: " " - " front else none

/-- The piece between identifier and date. -/
def gameOf (rest : Text) : Text :=
  match split " - " rest with
  | _ :: game :: _ :: _ => game
  | _ => []

/-- The amounts in front of and behind the mark of the identifier. -/
def amountTexts (line : Text) : AmountTexts :=
  let (front, rest) := (cut? "HandId: #" line).getD (line, [])
  { blinds := Amount.parts '/' (between? "(" ")" (gameOf rest))
    buyIn := Amount.parts '+' (buyInText? front)
    level? := levelText? front }

theorem events_tournament? (front : Text) :
    (tournament? front).events =
      (((Amount.parts '+' (buyInText? front)).filter (Amount.isUnread Amount.numerals)) ++
        (levelText? front).toList.filter (Amount.isUnread trimLine)).map .amountDefaulted := by
  rw [tournament?, buyInText?, levelText?, List.map_append]
  split
  · rw [Logged.events_bind, Logged.events_bind, Logged.events_pure, List.append_nil, amountOr,
      amountOr, (Amount.buyIn_parts _).2, Amount.events_level]
  · rfl

theorem buyIn_tournament? (front : Text) :
    (tournament? front).value.elim 0 Tournament.buyIn =
      (Amount.parts '+' (buyInText? front)).foldl
        (fun sum part => sum + (Amount.buyInPart part).value) 0 := by
  rw [tournament?, buyInText?]
  split
  · exact (Amount.buyIn_parts _).1
  · rfl

theorem level_tournament? {front level : Text} (found : levelText? front = some level) :
    (tournament? front).value.elim 0 Tournament.level =
      (Amount.atHead level).value.toUInt32.toNat := by
  rw [levelText?] at found
  rw [tournament?]
  split at found
  · next announced =>
    rw [if_pos announced, found]
    rfl
  · cases found

theorem readHeader_told {dates : Timestamp.Reader} {file line : Text} {told : Logged Header}
    (accepted : readHeader dates file line = .ok told) : (amountTexts line).Told told := by
  rw [readHeader] at accepted
  rw [amountTexts]
  split at accepted
  · cases accepted
  · next front rest marked =>
    rw [marked, Option.getD_some]
    split at accepted
    · next id second others pieces =>
      dsimp only at accepted
      split at accepted
      · cases accepted
      · split at accepted
        · cases accepted
        · cases accepted
          have game : gameOf rest = if others.isEmpty then [] else second := by
            rw [gameOf, pieces]
            cases others <;> rfl
          constructor
          · exact (Logged.events_map _ _).trans (events_tournament? front)
          · dsimp only
            rw [game]
            exact Amount.blinds_parts _
          · exact buyIn_tournament? front
          · exact fun level found => level_tournament? found
    · cases accepted

end Winamax

namespace PokerStars

open Text

/-- The word behind the comma behind the identifier of a tournament. -/
def buyInText? (line : Text) : Option Text :=
  (cut? " Tournament #" line).bind fun (_, rest) =>
    (cut? "," rest).bind fun (_, after) => (words after).head?

/-- The last pair of parentheses. -/
def blindsText? (body : Text) : Option Text :=
  (cutLast? "(" body).bind fun (_, rest) => (cut? ")" rest).map Prod.fst

/-- The blinds in front of the date, and the buy-in; a level is a Roman number here. -/
def amountTexts (line : Text) : AmountTexts :=
  { blinds := Amount.parts '/' ((cutLast? " - " line).bind fun (body, _) => blindsText? body)
    buyIn := Amount.parts '+' (buyInText? line)
    level? := none }

theorem blinds_eq (body : Text) :
    blinds body = Amount.lastTwo ((Amount.parts '/' (blindsText? body)).map Amount.blind) := by
  rw [← Amount.blinds_parts, blinds, blindsText?]
  cases cutLast? "(" body with
  | none => rfl
  | some found =>
    rw [Option.bind_some]
    dsimp only
    cases cut? ")" found.2 <;> rfl

/-- Only the buy-in is read leniently. -/
theorem tournament?_told (line : Text) :
    (tournament? line).value.elim 0 Tournament.buyIn =
        ((buyInText? line).elim (pure 0) Amount.buyIn).value ∧
      (tournament? line).events = ((buyInText? line).elim (pure 0) Amount.buyIn).events := by
  rw [tournament?, buyInText?]
  cases cut? " Tournament #" line with
  | none => exact ⟨rfl, rfl⟩
  | some found =>
    rw [Option.bind_some]
    dsimp only
    cases cut? "," found.2 with
    | none => exact ⟨rfl, rfl⟩
    | some behind => exact ⟨rfl, List.append_nil _⟩

theorem readHeader_told {dates : Timestamp.Reader} {file line : Text} {told : Logged Header}
    (accepted : readHeader dates file line = .ok told) : (amountTexts line).Told told := by
  unfold readHeader at accepted
  dsimp only at accepted
  split at accepted
  · cases accepted
  · split at accepted
    · cases accepted
    · next body date dated =>
      split at accepted
      · cases accepted
      · cases accepted
        obtain ⟨value, events⟩ := Amount.buyIn_parts (buyInText? line)
        obtain ⟨paid, noted⟩ := tournament?_told line
        rw [amountTexts, dated, Option.bind_some]
        constructor
        · rw [Logged.events_map, noted, events, AmountTexts.noted, Option.toList_none,
            List.filter_nil, List.append_nil]
        · exact blinds_eq body
        · exact paid.trans value
        · rintro level ⟨⟩

end PokerStars

namespace Room

open Text

/-- The texts that a room reads as amounts. -/
def amountTexts : Room → (line : Text) → AmountTexts
  | .winamax => Winamax.amountTexts
  | .pokerStars => PokerStars.amountTexts

theorem readHeader_told {room : Room} {file line : Text} {told : Logged Header}
    (accepted : room.readHeader file line = .ok told) : (room.amountTexts line).Told told := by
  cases room with
  | winamax => exact Winamax.readHeader_told accepted
  | pokerStars => exact PokerStars.readHeader_told accepted

/-- A part of a buy-in and a level without a digit are zero, and each of them is noted once. So
is every other one in which no number begins, and nothing else; a header whose buy-in and level
begin with digits is silent. The blinds are zero without a digit as well, but never noted. -/
theorem readHeader_amounts {room : Room} {file line : Text} {told : Logged Header}
    (accepted : room.readHeader file line = .ok told) :
    (room.amountTexts line).Told told ∧
    Event.lenientCount told.events = (room.amountTexts line).noted.length ∧
    (∀ event ∈ told.events,
      event.level = .debug ∧ event.message = "unparsable amount defaulted to 0".toList) ∧
    (∀ part ∈ (room.amountTexts line).buyIn,
      trimLine part ≠ [] → (∀ c ∈ part, Numeral.isDigit c = false) →
        (Amount.buyInPart part).value = 0 ∧
        (Amount.buyInPart part).events = [.amountDefaulted part] ∧
        Amount.isUnread Amount.numerals part = true) ∧
    (∀ level, (room.amountTexts line).level? = some level →
      trimLine level ≠ [] → (∀ c ∈ level, Numeral.isDigit c = false) →
        told.value.level = 0 ∧ (Amount.atHead level).events = [.amountDefaulted level] ∧
        Amount.isUnread trimLine level = true) ∧
    (∀ part ∈ (room.amountTexts line).blinds,
      (∀ c ∈ part, Numeral.isDigit c = false) → Amount.blind part = 0) ∧
    ((∀ part ∈ (room.amountTexts line).buyIn,
        Amount.opensWithDigit (part.dropWhile fun c => !Amount.inNumeral c) = true) →
      (∀ level, (room.amountTexts line).level? = some level →
        Amount.opensWithDigit (trimLine level) = true) →
      told.events = []) := by
  have read := readHeader_told accepted
  refine ⟨read, ?_, ?_, ?_, ?_, ?_, ?_⟩
  · rw [read.events, Event.lenientCount_amountDefaulted]
  · rw [read.events]
    intro event inside
    obtain ⟨text, -, rfl⟩ := List.mem_map.1 inside
    exact ⟨rfl, rfl⟩
  · intro part _ solid noDigit
    have unread : Amount.isUnread Amount.numerals part = true :=
      Amount.isUnread_of_noDigit solid fun c inside => noDigit c (List.mem_of_mem_filter inside)
    rw [Amount.buyInPart_eq, Amount.reading_of_isUnread unread]
    exact ⟨rfl, rfl, unread⟩
  · intro level found solid noDigit
    have unread : Amount.isUnread trimLine level = true :=
      Amount.isUnread_of_noDigit solid fun c inside => noDigit c (mem_of_mem_trimBy inside)
    have made : Amount.atHead level = Amount.defaulted level :=
      (Amount.atHead_eq level).trans (Amount.reading_of_isUnread unread)
    have zero : (0 : Float).toUInt32.toNat = 0 := by decide
    rw [read.level level found, made]
    exact ⟨zero, rfl, unread⟩
  · intro part _ noDigit
    have none := (Amount.ofToken?_eq_none_iff (trimBlank part)).2 fun c inside =>
      noDigit c (mem_of_mem_trimBy inside)
    rw [Amount.blind, none]
    rfl
  · intro opens begins
    have silent : (room.amountTexts line).noted = [] := by
      refine List.append_eq_nil_iff.2 ⟨?_, ?_⟩
      · refine List.filter_eq_nil_iff.2 fun part inside => ?_
        have first := Amount.opensWithDigit_numerals (opens part inside)
        simp [Amount.isUnread_of_opensWithDigit first]
      · refine List.filter_eq_nil_iff.2 fun level inside => ?_
        simp [Amount.isUnread_of_opensWithDigit (begins level (Option.mem_toList.1 inside))]
    rw [read.events, silent]
    rfl

/-- A tournament without a price, at a level that is no number, and with a small blind that is
none either. -/
def unreadableLine : Text :=
  "Winamax Poker - Tournament \"T\" buyIn: Free + 0.05€ level: x - HandId: #1-2-3 - ".toList ++
    "Holdem no limit (abc/0.02€) - 2014/11/12 23:49:45 UTC".toList

/-- Only the blind goes unnoticed. -/
theorem readHeader_amounts_unreadable :
    ∃ told, readHeader .winamax "f".toList unreadableLine = .ok told ∧
      told.events = [.amountDefaulted "Free ".toList, .amountDefaulted "x".toList] ∧
      told.value.level = 0 ∧ told.value.smallBlind = 0 := by
  have accepted : (readHeader .winamax "f".toList unreadableLine).isOk = true := by
    decide +kernel
  cases read : readHeader .winamax "f".toList unreadableLine with
  | error cause =>
    rw [read] at accepted
    cases accepted
  | ok told =>
    obtain ⟨made, -, -, -, level, blinds, -⟩ := readHeader_amounts read
    have texts : Room.winamax.amountTexts unreadableLine =
        { blinds := ["abc".toList, "0.02€".toList]
          buyIn := ["Free ".toList, " 0.05€".toList]
          level? := some "x".toList } := by
      decide +kernel
    rw [texts] at made level blinds
    have small : told.value.smallBlind = Amount.blind "abc".toList :=
      congrArg Prod.fst made.blinds
    refine ⟨told, rfl, ?_, ?_, ?_⟩
    · rw [made.events]
      decide +kernel
    · exact (level "x".toList rfl (by decide) (List.forall_mem_singleton.2 rfl)).1
    · rw [small]
      exact blinds _ List.mem_cons_self fun c inside =>
        Bool.eq_false_iff.2 (List.any_eq_false.1 (by decide) c inside)

end Room

end HandHistory
