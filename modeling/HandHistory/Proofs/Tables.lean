import HandHistory.Proofs.Rosters
import HandHistory.Proofs.WrittenDeals
import HandHistory.Proofs.WrittenHeaders

/-!
# Tables are read back

A table line names the table, and seat lines name who sits at it. Both names are free: a
table or a player may be called almost anything, also what the line is searched for.

The name of a table ends at the last quote of its line, and no quote is written behind it;
so every other field is searched for in a text that the room alone has written
(`WrittenTable.readTableLine_text`). The name of a player ends where the chips are opened,
and that is the first such place if the name has none.
-/

namespace HandHistory

open Text

/-! ## Numbers of seats -/

namespace Written

/-- The digits of a number. -/
def Digits.ofNat (n : Nat) : Digits :=
  ⟨Numeral.write n, Numeral.write_ne_nil n, fun _ => Numeral.isDigit_of_mem_write⟩

theorem not_mem_write {c : Char} (other : Numeral.isDigit c = false) (n : Nat) :
    c ∉ Numeral.write n := (Digits.ofNat n).not_mem other

end Written

namespace Seat

/-- Numbers from one to ten are those of places. -/
theorem ofNumber_eq (n : Nat) :
    ofNumber n = if h : 1 ≤ n ∧ n ≤ 10 then .place ⟨n - 1, by omega⟩ else .unknown := by
  cases n with
  | zero => rfl
  | succ index =>
    by_cases inRow : index < 10
    · have counted : 1 ≤ index + 1 ∧ index + 1 ≤ 10 := by omega
      simp [ofNumber, ofIndex, inRow]
    · have beyond : ¬ (1 ≤ index + 1 ∧ index + 1 ≤ 10) := by omega
      simp [ofNumber, ofIndex, inRow]

/-- The number of a seat may have any size; one that is too large names no place. -/
theorem ofNumberText_write (n : Nat) : ofNumberText (Numeral.write n) = ofNumber n := by
  have trimmed : trimBlank (Numeral.write n) = Numeral.write n :=
    (Written.Digits.ofNat n).toIdentifier.trimBlank_text
  rw [ofNumberText, trimmed, Numeral.word32?, Numeral.read?_write]
  split
  · rfl
  · next large =>
    have beyond : ¬ (1 ≤ n ∧ n ≤ 10) := by
      have : 10 < UInt32.size := by decide
      omega
    rw [ofNumber_eq, dif_neg beyond]
    rfl

theorem ofNumberText_writeInt (n : Int) : ofNumberText (Numeral.writeInt n) =
    if h : 1 ≤ n ∧ n ≤ 10 then .place ⟨n.natAbs - 1, by omega⟩ else .unknown := by
  by_cases negative : n < 0
  · have trimmed : trimBlank (Numeral.writeInt n) = Numeral.writeInt n := by
      refine Written.trimBlank_eq_self fun c inside => ?_
      rw [Numeral.writeInt, if_pos negative] at inside
      rcases List.mem_cons.1 inside with rfl | digit
      · decide
      · exact Written.isBlank_of_digit (Numeral.isDigit_of_mem_write digit)
    have beyond : ¬ (1 ≤ n ∧ n ≤ 10) := by omega
    rw [ofNumberText, trimmed, Numeral.word32?, Numeral.read?_writeInt_of_neg negative,
      dif_neg beyond]
    rfl
  · rw [Numeral.writeInt, if_neg negative, ofNumberText_write, ofNumber_eq]
    by_cases inRow : 1 ≤ n ∧ n ≤ 10
    · rw [dif_pos inRow, dif_pos (by omega)]
    · rw [dif_neg inRow, dif_neg (by omega)]

end Seat

/-! ## Table lines -/

namespace TableLine

variable {file line front digits : Text}

/-- Behind a space, a count is the digits that end the text. -/
theorem trailingCount_append (digit : ∀ c ∈ digits, Numeral.isDigit c = true) :
    trailingCount file line (front ++ ' ' :: digits) = seatCount file line digits := by
  have reversed : (front ++ ' ' :: digits).reverse = digits.reverse ++ ' ' :: front.reverse := by
    simp
  have digitBack : ∀ c ∈ digits.reverse, Numeral.isDigit c = true := fun c inside =>
    digit c (List.mem_reverse.1 inside)
  have noDigit : ¬ Numeral.isDigit ' ' = true := by decide
  rw [trailingCount, reversed, List.dropWhile_append_of_pos digitBack,
    List.dropWhile_cons_of_neg noDigit, List.takeWhile_append_of_pos digitBack,
    List.takeWhile_cons_of_neg noDigit, List.append_nil, List.reverse_reverse]
  exact if_neg (by decide)

theorem seatCount_write (n : Nat) : seatCount file line (Numeral.write n) =
    if n < 2 ^ 32 then .ok n else .error (.missingAnchor file .maxSeats line) := by
  have bound : UInt32.size = 2 ^ 32 := rfl
  rw [seatCount, Numeral.word32?, Numeral.read?_write, bound]
  by_cases small : n < 2 ^ 32
  · rw [if_pos small, if_pos small]
  · rw [if_neg small, if_neg small]

end TableLine

namespace Written

/-- The texts by which a room tells for what kind of money a table is played. -/
def moneyMarks : Room → List Text
  | .winamax => ["(real money)".toList, "(play money)".toList]
  | .pokerStars => ["(Play Money)".toList]

/-- A table with the seat of its button, as a room writes it. Its name holds nothing that
tells the kind of money. -/
structure WrittenTable where
  room : Room
  name : Text
  seats : Nat
  button : Nat
  isRealMoney : Bool
  unmarked : ∀ mark ∈ moneyMarks room, has mark name = false

namespace WrittenTable

/-- What stands between the number of seats and the seat of the button. -/
def moneyText : (room : Room) → (isRealMoney : Bool) → Text
  | .winamax, true => " (real money) "
  | .winamax, false => " (play money) "
  | .pokerStars, true => " "
  | .pokerStars, false => " (Play Money) "

/-- What stands in front of the name. -/
def lead : Room → Text
  | .winamax => "Table: "
  | .pokerStars => "Table "

variable (table : WrittenTable)

/-- The text behind the name. -/
def behindName : Text :=
  ' ' :: (Numeral.write table.seats ++ ("-max".toList ++ (moneyText table.room table.isRealMoney ++
    ("Seat #".toList ++ (Numeral.write table.button ++ " is the button".toList)))))

def text : Text := lead table.room ++ '\'' :: (table.name ++ '\'' :: table.behindName)

/-- What a table line says. -/
def tableLine : TableLine where
  table := table.name
  maxSeats := table.seats
  button := if h : 1 ≤ table.button ∧ table.button ≤ 10 then
    .place ⟨table.button - 1, by omega⟩ else .unknown
  isRealMoney? := some table.isRealMoney

/-! ### What is found behind the name -/

/-- A character that the room does not write is not behind the name. -/
theorem not_mem_behindName {c : Char} (noDigit : Numeral.isDigit c = false)
    (notMoney : c ∉ moneyText table.room table.isRealMoney)
    (notFixed : c ∉ ' ' :: ("-max".toList ++ ("Seat #".toList ++ " is the button".toList))) :
    c ∉ table.behindName := by
  have seats := not_mem_write noDigit table.seats
  have button := not_mem_write noDigit table.button
  simp only [List.mem_cons, List.mem_append, not_or] at notFixed
  simp only [behindName, List.mem_cons, List.mem_append, not_or]
  exact ⟨notFixed.1, seats, notFixed.2.1, notMoney, notFixed.2.2.1, button, notFixed.2.2.2⟩

theorem quote_not_mem_behindName : '\'' ∉ table.behindName := by
  refine table.not_mem_behindName (by decide) ?_ (by decide)
  cases table.room <;> cases table.isRealMoney <;> decide

theorem cut?_max_behindName : cut? "-max" table.behindName =
    some (' ' :: Numeral.write table.seats, moneyText table.room table.isRealMoney ++
      ("Seat #".toList ++ (Numeral.write table.button ++ " is the button".toList))) := by
  have noHyphen : '-' ∉ ' ' :: Numeral.write table.seats := by
    simp [not_mem_write (c := '-') (by decide)]
  exact cut?_of_not_mem noHyphen "max".toList _

theorem buttonIn_behindName : TableLine.buttonIn table.behindName = table.tableLine.button := by
  let front : Text :=
    ' ' :: (Numeral.write table.seats ++ ("-max".toList ++ moneyText table.room table.isRealMoney))
  have noS : 'S' ∉ front := by
    have money : 'S' ∉ moneyText table.room table.isRealMoney := by
      cases table.room <;> cases table.isRealMoney <;> decide
    simp [front, not_mem_write (c := 'S') (by decide), money]
  have shape : table.behindName =
      front ++ ("Seat #".toList ++ (Numeral.write table.button ++ " is the button".toList)) := by
    simp [behindName, front]
  have opened : cut? "Seat #" table.behindName =
      some (front, Numeral.write table.button ++ " is the button".toList) := by
    rw [shape]
    exact cut?_of_not_mem noS "eat #".toList _
  have closed : cut? " is the button" (Numeral.write table.button ++ " is the button".toList) =
      some (Numeral.write table.button, []) :=
    cut?_of_not_mem (not_mem_write (by decide) table.button) "is the button".toList []
  rw [TableLine.buttonIn, between?_of_cut? opened closed]
  exact (Seat.ofNumberText_write table.button).trans (Seat.ofNumber_eq table.button)

/-! ### Both rooms -/

/-- The fields of a written line are read, unless there are too many seats. -/
theorem ofFields_text (file : Text) (isRealMoney? : Option Bool) :
    TableLine.ofFields file table.text isRealMoney? =
      if table.seats < 2 ^ 32 then .ok { table.tableLine with isRealMoney? }
      else .error (.missingAnchor file .maxSeats table.text) := by
  have noQuote : '\'' ∉ lead table.room := by
    cases table.room <;> decide
  have opened : cut? "'" table.text =
      some (lead table.room, table.name ++ '\'' :: table.behindName) :=
    cut?_of_not_mem noQuote [] _
  have closed : cutLast? "'" (table.name ++ '\'' :: table.behindName) =
      some (table.name, table.behindName) :=
    cutLast?_of_not_mem table.quote_not_mem_behindName table.name
  have counted : TableLine.trailingCount file table.text (' ' :: Numeral.write table.seats) =
      if table.seats < 2 ^ 32 then .ok table.seats
      else .error (.missingAnchor file .maxSeats table.text) := by
    rw [← TableLine.seatCount_write table.seats]
    exact @TableLine.trailingCount_append file table.text [] _
      fun c => Numeral.isDigit_of_mem_write
  rw [TableLine.ofFields, opened]
  dsimp only
  rw [closed]
  dsimp only
  rw [table.cut?_max_behindName]
  dsimp only
  rw [counted, table.buttonIn_behindName]
  split <;> rfl

/-! ### The kind of money -/

/-- A mark stands behind the name or nowhere. -/
theorem has_mark {mark : Text} (marks : mark ∈ moneyMarks table.room) :
    has mark table.text = has mark table.behindName := by
  have plain : ∀ room, ∀ mark ∈ moneyMarks room, '\'' ∉ mark ∧ has mark (lead room) = false := by
    intro room
    cases room <;> decide
  obtain ⟨noQuote, notInLead⟩ := plain table.room mark marks
  rw [text, has_append_cons noQuote, has_append_cons noQuote, notInLead,
    table.unmarked mark marks, Bool.false_or, Bool.false_or]

theorem has_behindName_of_infix {mark : Text}
    (inside : mark <:+: moneyText table.room table.isRealMoney) :
    has mark table.behindName = true := by
  refine has_eq_true_iff.2 (inside.trans ?_)
  exact ⟨' ' :: (Numeral.write table.seats ++ "-max".toList),
    "Seat #".toList ++ (Numeral.write table.button ++ " is the button".toList),
    by simp only [behindName, List.cons_append, List.append_assoc]⟩

/-- Winamax writes one of two marks; the one that is looked for first has an `r`. -/
theorem money?_text (room : table.room = .winamax) :
    Winamax.money? table.text = some table.isRealMoney := by
  have realMark : has "(real money)" table.text = has "(real money)" table.behindName :=
    table.has_mark (by rw [room]; decide)
  have playMark : has "(play money)" table.text = has "(play money)" table.behindName :=
    table.has_mark (by rw [room]; decide)
  rw [Winamax.money?, realMark, playMark]
  cases kind : table.isRealMoney with
  | true =>
    have marked : has "(real money)" table.behindName = true :=
      table.has_behindName_of_infix (by rw [room, kind]; decide)
    rw [if_pos marked]
  | false =>
    have unmarked : has "(real money)" table.behindName = false := by
      refine has_eq_false_of_not_mem (c := 'r') (by decide) ?_
      exact table.not_mem_behindName (by decide) (by rw [room, kind]; decide) (by decide)
    have marked : has "(play money)" table.behindName = true :=
      table.has_behindName_of_infix (by rw [room, kind]; decide)
    rw [unmarked, if_neg Bool.false_ne_true, if_pos marked]

/-- PokerStars marks play money alone. -/
theorem has_playMoney_text (room : table.room = .pokerStars) :
    has "(Play Money)" table.text = !table.isRealMoney := by
  rw [table.has_mark (by rw [room]; decide)]
  cases kind : table.isRealMoney with
  | true =>
    refine has_eq_false_of_not_mem (c := 'P') (by decide) ?_
    exact table.not_mem_behindName (by decide) (by rw [room, kind]; decide) (by decide)
  | false => exact table.has_behindName_of_infix (by rw [room, kind]; decide)

/-- A table line is read as it was written, whatever the table is called; it is refused only
if the number of seats does not fit a word of thirty-two bits. -/
theorem readTableLine_text (file : Text) : table.room.readTableLine file table.text =
    if table.seats < 2 ^ 32 then .ok table.tableLine
    else .error (.missingAnchor file .maxSeats table.text) := by
  cases room : table.room with
  | winamax =>
    have start : hasStart "Table: " table.text = true := by
      rw [text, room]
      rfl
    rw [Room.readTableLine, Winamax.readTableLine, if_pos start, table.money?_text room]
    exact table.ofFields_text file (some table.isRealMoney)
  | pokerStars =>
    have start : hasStart "Table '" table.text = true := by
      rw [text, room]
      rfl
    rw [Room.readTableLine, PokerStars.readTableLine, if_pos start,
      table.has_playMoney_text room, Bool.not_not]
    exact table.ofFields_text file (some table.isRealMoney)

/-- A table that is called after everything that is looked for in its line. -/
def misleading : WrittenTable where
  room := .winamax
  name := "O'Neil' 9-max Seat #3 is the button"
  seats := 5
  button := 4294967295
  isRealMoney := false
  unmarked := by decide

theorem readTableLine_text_misleading :
    misleading.text = "Table: 'O'Neil' 9-max Seat #3 is the button' 5-max ".toList ++
      "(play money) Seat #4294967295 is the button" ∧
    Room.winamax.readTableLine [] misleading.text = .ok
      { table := "O'Neil' 9-max Seat #3 is the button", maxSeats := 5, button := .unknown,
        isRealMoney? := some false } :=
  ⟨by decide, misleading.readTableLine_text []⟩

end WrittenTable

/-! ## Seat lines -/

/-- A line that gives a place to a player. The name is trimmed, and no chips are opened in
it; what follows the chips may be anything. -/
structure SeatLine where
  number : Int
  name : Text
  stack : Text
  status : Text
  named : name ≠ []
  trimmed : trimLine name = name
  unopened : Unopened name
  opens : BodyLine.opensChips stack = true

namespace SeatLine

variable (line : SeatLine)

/-- The line up to the bracket behind the chips. -/
def front : Text :=
  "Seat ".toList ++ (Numeral.writeInt line.number ++ (": ".toList ++ (line.name ++
    (" (".toList ++ line.stack)))) ++ [')']

def text : Text := line.front ++ line.status

theorem colon_not_mem_number : ':' ∉ Numeral.writeInt line.number := by
  have digits := not_mem_write (c := ':') (by decide) line.number.natAbs
  rw [Numeral.writeInt]
  split
  · simp [digits]
  · exact digits

/-- The name of a seat line is all that stands in front of the chips. -/
theorem seatedName_text (rest : Text) :
    BodyLine.seatedName (line.name ++ (" (".toList ++ (line.stack ++ rest))) = line.name := by
  have noSpace : line.name.getLast? ≠ some ' ' := by
    obtain ⟨front, c, same, solid⟩ := ends_trimLine (line.trimmed.symm ▸ line.named)
    rw [line.trimmed] at same
    rw [same, List.getLast?_concat]
    rintro ⟨⟩
    cases solid
  have opens : BodyLine.opensChips (line.stack ++ rest) = true := by
    have first := line.opens
    cases stack : line.stack with
    | nil => simp [stack, BodyLine.opensChips] at first
    | cons c others => simpa [stack, BodyLine.opensChips] using first
  rw [BodyLine.seatedName, beforeChips?_append line.unopened noSpace opens, Option.getD_some,
    line.trimmed]

/-- While seats are open, the line is read as a seat line of its number and its name. -/
theorem ofText_text : BodyLine.ofText true line.text =
    .seat (Numeral.writeInt line.number) line.name (trimLine line.text) := by
  have starts : Starts line.front := ⟨'S', _, rfl, by decide⟩
  have ends : Ends line.front := ⟨_, ')', rfl, by decide⟩
  obtain ⟨rest, kept⟩ := exists_trimLine_append starts ends line.status
  let body : Text := line.name ++ (" (".toList ++ (line.stack ++ ([')'] ++ rest)))
  have shape : line.front ++ rest =
      "Seat ".toList ++ (Numeral.writeInt line.number ++ (": ".toList ++ body)) := by
    unfold front
    simp only [body, List.append_assoc]
  have named : (line.front ++ rest).isEmpty = false := rfl
  have noSummary : hasStart "*** SUMMARY ***" (line.front ++ rest) = false := rfl
  have seat : stripStart? "Seat " (line.front ++ rest) =
      some (Numeral.writeInt line.number ++ (": ".toList ++ body)) := by
    rw [shape, stripStart?_append]
  have found : cut? ": " (Numeral.writeInt line.number ++ (": ".toList ++ body)) =
      some (Numeral.writeInt line.number, body) :=
    cut?_of_not_mem line.colon_not_mem_number " ".toList body
  rw [BodyLine.ofText, text, kept, named, if_neg Bool.false_ne_true, noSummary,
    if_neg Bool.false_ne_true, seat]
  dsimp only
  rw [if_pos rfl, BodyLine.ofSeat, found]
  dsimp only
  rw [line.seatedName_text]

end SeatLine

end Written

namespace Draft

open Reading Written

/-- Seat lines count: no line of another kind has come, nor has the summary begun. -/
structure TakesSeats (draft : Draft) : Prop where
  seatsOpen : draft.seatsOpen = true
  reading : draft.inSummary = false

variable {context : HandContext} {draft : Draft}

/-- A seat line leaves the seats open. -/
theorem consume_seat (opened : draft.TakesSeats) (line : SeatLine) :
    draft.consume context line.text =
      draft.takeSeat context (Numeral.writeInt line.number) line.name (trimLine line.text) := by
  rw [consume, if_neg (by simp [opened.reading]), opened.seatsOpen, line.ofText_text]
  have same : ({ draft with seatsOpen := true } : Draft) = draft := by rw [← opened.seatsOpen]
  exact congrArg (fun draft => takeSeat context _ _ _ draft) same

/-- A seat line gives its place to the whole name in front of the chips, enrols that name, and
changes nothing else; one with another number than one to ten changes nothing at all. -/
theorem runFrom_consume_seatLine (line : SeatLine) (session : Session)
    (opened : draft.TakesSeats) (ready : session.roster.site ≠ []) :
    (∀ place : Fin 10, line.number = place.val + 1 → ∃ roster,
      (draft.consume context line.text).runFrom session =
        (.ok { draft with seats := draft.seats.set place.val line.name place.isLt },
          { session with roster }) ∧
      session.roster.Gains [(line.name, false)] roster) ∧
    (¬ (1 ≤ line.number ∧ line.number ≤ 10) →
      (draft.consume context line.text).runFrom session =
        (.ok draft, { session with
          events := session.events ++ [.seatLineSkipped context.file (trimLine line.text)] })) := by
  rw [consume_seat opened line, takeSeat, Seat.ofNumberText_writeInt]
  constructor
  · intro place numbered
    have counted : 1 ≤ line.number ∧ line.number ≤ 10 := by omega
    have here : (⟨line.number.natAbs - 1, by omega⟩ : Fin 10) = place := by
      ext
      show line.number.natAbs - 1 = place.val
      omega
    have somebody : ¬ line.name.isEmpty = true := by simpa using line.named
    obtain ⟨isNew, roster, enrolled, -⟩ := Roster.enrol_of_ne_nil ready line.named
    have enrols : (enrol context.file line.name).runFrom session =
        (.ok (), { session with roster }) := by
      rw [runFrom_enrol, enrolled]
    refine ⟨roster, ?_, Roster.gains_enrol enrolled⟩
    rw [dif_pos counted, here, Seat.index?]
    dsimp only
    rw [if_neg somebody, runFrom_bind_of_ok enrols]
    rfl
  · intro elsewhere
    rw [dif_neg elsewhere]
    rfl

/-- A name with brackets and a colon, in front of chips with a remark in brackets behind them.
The other line names a seat that there is not. -/
theorem runFrom_consume_seatLine_brackets :
    let context : HandContext := { file := "f", handId := "1", cardDelimiter := " " }
    let session : Session := { cursor := .ofText "f" [], roster := { site := "PokerStars" } }
    ∃ (line : SeatLine) (roster : Roster),
      line.text = "Seat 2: bob (the (fish): 7 ($2 in chips) out of hand (moved (1 table))".toList ∧
      (({} : Draft).consume context line.text).runFrom session =
        (.ok { seats := NameRow.free.set 1 "bob (the (fish): 7" }, { session with roster }) ∧
      "bob (the (fish): 7".toList ∈ roster.players.names ∧
      (({} : Draft).consume context "Seat 11: bob (5)").runFrom session =
        (.ok {}, { session with events := [.seatLineSkipped "f" "Seat 11: bob (5)"] }) := by
  intro context session
  let bob : SeatLine :=
    { number := 2
      name := "bob (the (fish): 7"
      stack := "$2 in chips"
      status := " out of hand (moved (1 table))"
      named := by decide
      trimmed := by decide
      unopened := unopened_of_beforeChips? (by decide)
      opens := by decide }
  let nowhere : SeatLine :=
    { number := 11
      name := "bob"
      stack := "5"
      status := []
      named := by decide
      trimmed := by decide
      unopened := unopened_of_beforeChips? (by decide)
      opens := by decide }
  have opened : ({} : Draft).TakesSeats := ⟨rfl, rfl⟩
  have ready : session.roster.site ≠ [] := by decide
  obtain ⟨roster, run, gains⟩ :=
    (@runFrom_consume_seatLine context _ bob session opened ready).1 1 (by decide)
  refine ⟨bob, roster, by decide, run, (gains.names _).2 (Or.inr ⟨false, ?_⟩), ?_⟩
  · exact List.mem_singleton_self _
  · have skipped := (@runFrom_consume_seatLine context _ nowhere session opened ready).2 (by decide)
    have text : nowhere.text = "Seat 11: bob (5)".toList := by decide
    have solid : trimLine "Seat 11: bob (5)" = "Seat 11: bob (5)".toList := by decide
    rwa [text, solid] at skipped

end Draft

end HandHistory
