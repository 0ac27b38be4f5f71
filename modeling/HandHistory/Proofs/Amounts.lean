import HandHistory.Proofs.Hands

/-!
# Amounts that are at least zero

Bets, antes, blinds and buy-ins are to be at least zero. Whoever makes an entity has
its fields judged by the rules of a `Form`, and gets either the entity as it was
given or the error of a rule that is broken.

The rule about amounts refuses what is below zero. That is not quite the same as to
ask for at least zero: a double that is no number is on neither side, and passes.
`created_amounts` says so of every constructor. No such double comes out of a history:
every amount that is read is zero, the double of a decimal, or a sum of those.
-/

namespace HandHistory

/-! ## Rules -/

/-- The fields of an entity that are judged when it is made. -/
structure Form where
  texts : List (RequiredField × Text) := []
  amounts : List (AmountField × Float) := []
  street? : Option Street := none
  /-- The hand and the names at its table. -/
  table? : Option (Text × NameRow) := none

/-- A rule that the fields break, by the error that names it. -/
inductive Form.Breaks (form : Form) : ModelError → Prop
  | emptyField {field : RequiredField} (missing : (field, []) ∈ form.texts) :
    form.Breaks (.emptyField field)
  | streetNone (undealt : form.street? = some .undealt) : form.Breaks .streetNone
  | noOccupiedSeat {handId : Text} {row : NameRow} (seats : form.table? = some (handId, row))
    (free : ∀ name ∈ row.toList, name = []) : form.Breaks (.noOccupiedSeat handId)
  | negativeAmount {field : AmountField} {amount : Float} (given : (field, amount) ∈ form.amounts)
    (below : amount < 0) : form.Breaks (.negativeAmount field)

/-- The outcome of making an entity: the entity as it was given, if its fields break no
rule, and else the error of one that they break. -/
structure Form.Judges {α : Type} (form : Form) (entity : α) (result : Except ModelError α) :
    Prop where
  accepted : ∀ made, result = .ok made → made = entity ∧ ∀ error, ¬ form.Breaks error
  refused : ∀ error, result = .error error → form.Breaks error

namespace Form

variable {α : Type} {form : Form} {entity : α} {result : Except ModelError α}

theorem Judges.ok (sound : ∀ error, ¬ form.Breaks error) : form.Judges entity (.ok entity) where
  accepted := by
    rintro _ ⟨⟩
    exact ⟨rfl, sound⟩
  refused := by
    rintro _ ⟨⟩

/-- One more rule is asked about in front of the others. -/
theorem Judges.check {broken : Prop} [Decidable broken] {error : ModelError}
    (breaks : broken → form.Breaks error) (others : ¬ broken → form.Judges entity result) :
    form.Judges entity (if broken then .error error else result) := by
  split
  · next h =>
    constructor
    · rintro _ ⟨⟩
    · rintro _ ⟨⟩
      exact breaks h
  · next h => exact others h

/-- An amount that is not refused is at least zero, unless it is no number. -/
theorem Judges.zero_le_iff {made : α} (judged : form.Judges entity result)
    (created : result = .ok made) {field : AmountField} {amount : Float}
    (given : (field, amount) ∈ form.amounts) : 0 ≤ amount ↔ amount.isNaN = false := by
  obtain ⟨-, sound⟩ := judged.accepted made created
  have notBelow : ¬ amount < 0 := fun below => sound _ (.negativeAmount given below)
  rw [Decimal.zero_le_iff, and_iff_right notBelow]

end Form

/-! ## Constructors -/

def Action.form (handId player : Text) (street : Street) (amount : Float) : Form where
  texts := [(.actionHand, handId), (.actionPlayer, player)]
  amounts := [(.bet, amount)]
  street? := some street

def Hand.form (hand : Hand) : Form where
  texts := [(.handId, hand.id), (.handSite, hand.site), (.handTable, hand.table)]
  amounts := [(.ante, hand.ante)]
  table? := some (hand.id, hand.seats)

def Stakes.form : Stakes → Form
  | .cash smallBlind bigBlind => { amounts := [(.smallBlind, smallBlind), (.bigBlind, bigBlind)] }
  | .tournament buyIn => { amounts := [(.buyIn, buyIn)] }

theorem Action.judges_create (handId player : Text) (street : Street) (kind : ActionKind)
    (index : Nat) (amount : Float) :
    (Action.form handId player street amount).Judges
      { handId, player, street, kind, index, amount }
      (Action.create handId player street kind index amount) := by
  rw [Action.create]
  refine .check (fun h => .emptyField ?_) fun ofHand => ?_
  · simp [form, List.isEmpty_iff.1 h]
  refine .check (fun h => .emptyField ?_) fun ofPlayer => ?_
  · simp [form, List.isEmpty_iff.1 h]
  refine .check (fun h => .streetNone (congrArg some h)) fun dealt => ?_
  refine .check (fun h => .negativeAmount List.mem_cons_self h) fun notBelow => ?_
  refine .ok ?_
  rintro error (missing | undealt | ⟨seats, -⟩ | ⟨given, below⟩)
  · simp [form] at missing
    rcases missing with ⟨-, rfl⟩ | ⟨-, rfl⟩ <;> contradiction
  · exact dealt (Option.some.inj undealt)
  · cases seats
  · cases List.mem_singleton.1 given
    exact notBelow below

theorem Hand.judges_create (hand : Hand) : hand.form.Judges hand hand.create := by
  rw [Hand.create]
  refine .check (fun h => .emptyField ?_) fun named => ?_
  · simp [form, List.isEmpty_iff.1 h]
  refine .check (fun h => .emptyField ?_) fun ofSite => ?_
  · simp [form, List.isEmpty_iff.1 h]
  refine .check (fun h => .emptyField ?_) fun atTable => ?_
  · simp [form, List.isEmpty_iff.1 h]
  refine .check (fun h => .negativeAmount List.mem_cons_self h) fun notBelow => ?_
  refine .check (fun h => .noOccupiedSeat rfl ?_) fun occupied => ?_
  · intro name sits
    exact List.isEmpty_iff.1 (List.all_eq_true.1 h name sits)
  refine .ok ?_
  rintro error (missing | undealt | ⟨seats, free⟩ | ⟨given, below⟩)
  · simp only [List.isEmpty_iff] at named ofSite atTable
    simp [form, Ne.symm named, Ne.symm ofSite, Ne.symm atTable] at missing
  · cases undealt
  · cases seats
    exact occupied (List.all_eq_true.2 fun name sits => List.isEmpty_iff.2 (free name sits))
  · cases List.mem_singleton.1 given
    exact notBelow below

theorem Stakes.judges_createCash (smallBlind bigBlind : Float) :
    (Stakes.cash smallBlind bigBlind).form.Judges (.cash smallBlind bigBlind)
      (Stakes.createCash smallBlind bigBlind) := by
  rw [Stakes.createCash]
  refine .check (fun h => .negativeAmount List.mem_cons_self h) fun small => ?_
  refine .check (fun h => .negativeAmount (List.mem_cons_of_mem _ List.mem_cons_self) h)
    fun big => ?_
  refine .ok ?_
  rintro error (missing | undealt | ⟨seats, -⟩ | ⟨given, below⟩)
  · cases missing
  · cases undealt
  · cases seats
  · simp [form] at given
    rcases given with ⟨-, rfl⟩ | ⟨-, rfl⟩ <;> contradiction

theorem Stakes.judges_createTournament (buyIn : Float) :
    (Stakes.tournament buyIn).form.Judges (.tournament buyIn) (Stakes.createTournament buyIn) := by
  rw [Stakes.createTournament]
  refine .check (fun h => .negativeAmount List.mem_cons_self h) fun notBelow => .ok ?_
  rintro error (missing | undealt | ⟨seats, -⟩ | ⟨given, below⟩)
  · cases missing
  · cases undealt
  · cases seats
  · cases List.mem_singleton.1 given
    exact notBelow below

/-! ## Amounts that are read -/

namespace Amount

/-- The double has no sign, and so is at least zero. -/
def Unsigned (amount : Float) : Prop := Decimal.isUnsigned amount.toModel.unpack = true

theorem Unsigned.zero_le {amount : Float} (unsigned : Unsigned amount) : 0 ≤ amount :=
  Decimal.zero_le_of_isUnsigned unsigned

theorem unsigned_zero : Unsigned 0 := congrArg Decimal.isUnsigned Decimal.unpack_zero

theorem unsigned_ofToken? (token : Text) : Unsigned ((ofToken? token).getD 0) := by
  rw [ofToken?]
  cases Decimal.leading? _ with
  | none => exact unsigned_zero
  | some d => exact d.isUnsigned_toFloat

theorem unsigned_last (line : Text) : Unsigned (last line).value := by
  rw [last]
  split
  · next amount found =>
    obtain ⟨token, -, read⟩ := List.exists_of_findSome?_eq_some found
    have unsigned := unsigned_ofToken? token
    rwa [read] at unsigned
  · exact unsigned_zero

theorem unsigned_blinds (group : Text) :
    Unsigned (blinds group).1 ∧ Unsigned (blinds group).2 := by
  unfold blinds
  dsimp only
  generalize hamounts : (Text.fields '/' group).map
    (fun part => (ofToken? (Text.trimBlank part)).getD 0) = amounts
  have all : ∀ amount ∈ amounts.reverse, Unsigned amount := by
    intro amount inside
    rw [← hamounts, List.mem_reverse] at inside
    obtain ⟨part, -, rfl⟩ := List.mem_map.1 inside
    exact unsigned_ofToken? _
  split
  · next big small others same =>
    rw [same] at all
    exact ⟨all small (by simp), all big (by simp)⟩
  · next big same =>
    rw [same] at all
    exact ⟨unsigned_zero, all big (by simp)⟩
  · exact ⟨unsigned_zero, unsigned_zero⟩

theorem unsigned_buyInPart (part : Text) : Unsigned (buyInPart part).value := by
  rw [buyInPart]
  split
  · next d _ => exact d.isUnsigned_toFloat
  · split <;> exact unsigned_zero

theorem unsigned_buyIn (text : Text) : Unsigned (buyIn text).value := by
  have sums : ∀ (parts : List Text) (sum : Float), Unsigned sum →
      Unsigned (parts.foldlM (fun sum part => (sum + ·) <$> buyInPart part) sum : Logged Float).value := by
    intro parts
    induction parts with
    | nil => exact fun sum unsigned => unsigned
    | cons part parts ih =>
      intro sum unsigned
      rw [List.foldlM_cons]
      exact ih _ (Decimal.isUnsigned_sum unsigned (unsigned_buyInPart part))
  exact sums _ 0 unsigned_zero

end Amount

/-- The money that a header tells of. -/
structure Header.Unsigned (header : Header) : Prop where
  smallBlind : Amount.Unsigned header.smallBlind
  bigBlind : Amount.Unsigned header.bigBlind
  buyIn : Amount.Unsigned header.buyIn

namespace Winamax

theorem unsigned_tournament? (front : Text) :
    ∀ tournament, (tournament? front).value = some tournament →
      Amount.Unsigned tournament.buyIn := by
  unfold tournament?
  split
  · rintro _ ⟨⟩
    show Amount.Unsigned (amountOr Amount.buyIn _).value
    rw [amountOr]
    cases (Text.between? "buyIn: " " level: " front).or (Text.between? "buyIn: " " - " front) with
    | none => exact Amount.unsigned_zero
    | some text => exact Amount.unsigned_buyIn text
  · rintro _ ⟨⟩

theorem unsigned_header (handId game : Text) (start : Timestamp) {tournament? : Option Tournament}
    (paid : ∀ tournament, tournament? = some tournament → Amount.Unsigned tournament.buyIn) :
    (header handId game start tournament?).Unsigned := by
  have blinds : Amount.Unsigned
        (((Text.between? "(" ")" game).map Amount.blinds).getD (0, 0)).1 ∧
      Amount.Unsigned (((Text.between? "(" ")" game).map Amount.blinds).getD (0, 0)).2 := by
    cases Text.between? "(" ")" game with
    | none => exact ⟨Amount.unsigned_zero, Amount.unsigned_zero⟩
    | some group => exact Amount.unsigned_blinds group
  refine ⟨blinds.1, blinds.2, ?_⟩
  cases tournament? with
  | none => exact Amount.unsigned_zero
  | some tournament => exact paid tournament rfl

theorem unsigned_readHeader {dates : Timestamp.Reader} {file line : Text}
    {logged : Logged Header} (accepted : readHeader dates file line = .ok logged) : logged.value.Unsigned := by
  rw [readHeader] at accepted
  split at accepted
  · cases accepted
  · next front rest _ =>
    split at accepted
    · dsimp only at accepted
      split at accepted
      · cases accepted
      · split at accepted
        · cases accepted
        · cases accepted
          exact unsigned_header _ _ _ (unsigned_tournament? front)
    · cases accepted

end Winamax

namespace PokerStars

theorem unsigned_tournament? (line : Text) :
    ∀ tournament, (tournament? line).value = some tournament →
      Amount.Unsigned tournament.buyIn := by
  unfold tournament?
  split
  · rintro _ ⟨⟩
  · next rest _ =>
    obtain ⟨id, after⟩ := (Text.cut? "," rest).getD (rest, [])
    rintro _ ⟨⟩
    show Amount.Unsigned ((Text.words after).head?.elim (pure 0) Amount.buyIn).value
    cases (Text.words after).head? with
    | none => exact Amount.unsigned_zero
    | some text => exact Amount.unsigned_buyIn text

theorem unsigned_blinds (body : Text) :
    Amount.Unsigned (blinds body).1 ∧ Amount.Unsigned (blinds body).2 := by
  unfold blinds
  split
  · split
    · exact Amount.unsigned_blinds _
    · exact ⟨Amount.unsigned_zero, Amount.unsigned_zero⟩
  · exact ⟨Amount.unsigned_zero, Amount.unsigned_zero⟩

theorem unsigned_header (handId body : Text) (start : Timestamp) {tournament? : Option Tournament}
    (paid : ∀ tournament, tournament? = some tournament → Amount.Unsigned tournament.buyIn) :
    (header handId body start tournament?).Unsigned := by
  refine ⟨(unsigned_blinds body).1, (unsigned_blinds body).2, ?_⟩
  cases tournament? with
  | none => exact Amount.unsigned_zero
  | some tournament => exact paid tournament rfl

theorem unsigned_readHeader {dates : Timestamp.Reader} {file line : Text}
    {logged : Logged Header} (accepted : readHeader dates file line = .ok logged) : logged.value.Unsigned := by
  unfold readHeader at accepted
  dsimp only at accepted
  split at accepted
  · cases accepted
  · split at accepted
    · cases accepted
    · split at accepted
      · cases accepted
      · cases accepted
        exact unsigned_header _ _ _ (unsigned_tournament? line)

end PokerStars

theorem Room.unsigned_readHeader {room : Room} {file line : Text} {logged : Logged Header}
    (accepted : room.readHeader file line = .ok logged) : logged.value.Unsigned := by
  cases room with
  | winamax => exact Winamax.unsigned_readHeader accepted
  | pokerStars => exact PokerStars.unsigned_readHeader accepted

/-! ## Entities of a history -/

namespace Draft

open Reading

variable {context : HandContext} {draft : Draft}

/-- The step: a line tells of another ante that is at least zero, or of none. -/
theorem yields_ante_takeLine (line : BodyLine) (kept : 0 ≤ draft.ante) :
    Yields (takeLine context draft line) fun after => 0 ≤ after.ante := by
  have acts : ∀ (kind : ActionKind) (player : Text) (amount : Float),
      Yields (draft.addAction context kind player amount) fun after => 0 ≤ after.ante :=
    fun kind player amount => yields_bind fun _ => yields_bind fun _ => yields_pure kept
  cases line with
  | blank | summary | brokenSeat | preflop | marker | blind | noise => exact yields_pure kept
  | seat number player line =>
    rw [takeLine, takeSeat]
    split
    · split <;> exact yields_bind fun _ => yields_pure kept
    · exact yields_bind fun _ => yields_pure kept
  | board part group? =>
    rw [takeLine, takeBoard.eq_def]
    split
    · exact yields_bind fun _ => yields_pure kept
    · exact yields_pure kept
  | ante line =>
    exact (yields_ofLogged (Amount.unsigned_last line).zero_le).bind fun _ least =>
      yields_pure least
  | dealt player group? =>
    rw [takeLine, takeDealt]
    refine yields_bind fun _ => ?_
    split
    · exact yields_bind fun _ => yields_pure kept
    · exact yields_pure kept
  | winner player line =>
    rw [takeLine, takeWinner]
    split
    · refine yields_bind fun _ => yields_pure ?_
      rw [addWinner]
      split <;> exact kept
    · exact yields_bind fun _ => yields_pure kept
  | action kind player tail line =>
    rw [takeLine, takeAction]
    split
    · dsimp only
      split <;> exact yields_bind fun amount => acts kind player amount
    · exact yields_bind fun _ => yields_pure kept

theorem yields_ante_consume (raw : Text) (kept : 0 ≤ draft.ante) :
    Yields (draft.consume context raw) fun after => 0 ≤ after.ante := by
  rw [consume]
  split
  · exact yields_pure kept
  · exact yields_ante_takeLine _ kept

theorem yields_ante_addSilentWinners (kept : 0 ≤ draft.ante) :
    Yields (draft.addSilentWinners context) fun after => 0 ≤ after.ante := by
  rw [addSilentWinners]
  generalize draft.silentWinners = names
  induction names generalizing draft with
  | nil => exact yields_pure kept
  | cons name names ih =>
    rw [List.foldlM_cons]
    have acts : Yields (draft.addAction context .silent name 0) fun after => 0 ≤ after.ante :=
      yields_bind fun _ => yields_bind fun _ => yields_pure kept
    exact acts.bind fun _ least => ih least

end Draft

/-- The amounts of a hand: its ante and what each action costs. -/
def Hand.amounts (hand : Hand) : List Float := hand.ante :: hand.actions.map Action.amount

def Stakes.amounts : Stakes → List Float
  | .cash smallBlind bigBlind => [smallBlind, bigBlind]
  | .tournament buyIn => [buyIn]

namespace GameData

/-- The data tells of the same money as a header. -/
def HasMoney (header : Header) (data : GameData) : Prop :=
  data.smallBlind = header.smallBlind ∧ data.bigBlind = header.bigBlind ∧
    data.buyIn = header.buyIn

/-- No file name overrules the money of the first hand. -/
theorem money_gather (room : Room) (header : Header) (table : TableLine) (stem : Text) :
    (gather room header table stem).HasMoney header := by
  rw [gather]
  cases room.fileStem? stem <;> exact ⟨rfl, rfl, rfl⟩

theorem zero_le_stakes {header : Header} {data : GameData} (money : data.HasMoney header)
    (unsigned : header.Unsigned) {stakes : Stakes} (created : data.stakes = .ok stakes) :
    ∀ amount ∈ stakes.amounts, 0 ≤ amount := by
  obtain ⟨small, big, buyIn⟩ := money
  rw [GameData.stakes, small, big, buyIn] at created
  split at created
  · obtain ⟨rfl, -⟩ := (Stakes.judges_createCash _ _).accepted _ created
    simp only [Stakes.amounts, List.forall_mem_cons]
    exact ⟨unsigned.smallBlind.zero_le, unsigned.bigBlind.zero_le, by simp⟩
  · obtain ⟨rfl, -⟩ := (Stakes.judges_createTournament _).accepted _ created
    simp only [Stakes.amounts, List.forall_mem_cons]
    exact ⟨unsigned.buyIn.zero_le, by simp⟩

end GameData

namespace History

open Reading

variable (room : Room)

theorem yields_readBody_ante {context : HandContext} {draft : Draft} (kept : 0 ≤ draft.ante)
    (lines : List Text) : Yields (readBody room context lines draft) fun after => 0 ≤ after.ante := by
  induction lines generalizing draft with
  | nil => exact yields_pure kept
  | cons line lines ih =>
    rw [readBody]
    split
    · exact yields_pure kept
    · exact yields_bind fun _ => (Draft.yields_ante_consume line kept).bind fun _ least => ih least

theorem yields_readHeader_unsigned : Yields (readHeader room) Header.Unsigned := by
  rw [readHeader]
  refine yields_bind fun before => yields_bind fun found => ?_
  split
  · refine yields_bind fun session => ?_
    split
    · next logged accepted => exact yields_ofLogged (Room.unsigned_readHeader accepted)
    · exact yields_throw _ _
  · exact yields_throw _ _

/-- Header and ante of a hand tell of nothing below zero. -/
theorem yields_readHand_unsigned :
    Yields (readHand room) fun record => record.header.Unsigned ∧ 0 ≤ record.hand.ante := by
  unfold readHand readRest
  refine (yields_readHeader_unsigned room).bind fun header unsigned => ?_
  refine yields_bind fun table => yields_bind fun session => ?_
  have nothing : 0 ≤ ({} : Draft).ante := Amount.unsigned_zero.zero_le
  refine (yields_readBody_ante room nothing _).bind fun draft body => ?_
  refine (Draft.yields_ante_addSilentWinners body).bind fun draft least => ?_
  refine Yields.bind (yields_ofModel fun hand created => created) fun hand created => ?_
  obtain ⟨rfl, -⟩ := Hand.create_eq_ok created
  exact yields_pure ⟨unsigned, least⟩

theorem yields_readHand_amounts :
    Yields (readHand room) fun record =>
      record.header.Unsigned ∧ ∀ amount ∈ record.hand.amounts, 0 ≤ amount := by
  intro session record after run
  obtain ⟨unsigned, ante⟩ := yields_readHand_unsigned room session record after run
  have sound := yields_readHand room session record after run
  refine ⟨unsigned, fun amount inside => ?_⟩
  rcases List.mem_cons.1 inside with rfl | inside
  · exact ante
  · obtain ⟨action, acts, rfl⟩ := List.mem_map.1 inside
    obtain ⟨index, found⟩ := List.getElem?_of_mem acts
    have fits := sound.actionsFit index action found
    exact Decimal.zero_le_iff.2 ⟨fits.notNegative, fits.isNumber⟩

theorem yields_readGame_amounts (stem : Text) :
    Yields (readGame room stem) fun game? => ∀ game, game? = some game →
      (∀ amount ∈ game.stakes.amounts, 0 ≤ amount) ∧
        ∀ hand ∈ game.game.hands, ∀ amount ∈ hand.amounts, 0 ≤ amount := by
  have first : Yields (readHandAndData room stem) fun read =>
      (∀ amount ∈ read.1.amounts, 0 ≤ amount) ∧
        ∀ stakes, read.2.stakes = .ok stakes → ∀ amount ∈ stakes.amounts, 0 ≤ amount :=
    (yields_readHand_amounts room).bind fun record ⟨unsigned, least⟩ => yields_pure
      ⟨least, fun _ created => GameData.zero_le_stakes
        (GameData.money_gather room record.header record.table stem) unsigned created⟩
  have others : Yields (readHand room) fun record =>
      ∀ amount ∈ record.hand.amounts, 0 ≤ amount :=
    (yields_readHand_amounts room).mono fun _ both => both.2
  exact @yields_readGame_of room stem (fun hand => ∀ amount ∈ hand.amounts, 0 ≤ amount)
    (fun stakes => ∀ amount ∈ stakes.amounts, 0 ≤ amount) first others

end History

/-- Whoever makes an entity gets it as it was given, if it breaks no rule, and otherwise
a rule that it breaks. Its amounts are then at least zero but for those that are no
numbers; and amounts that are read from a history are all at least zero. -/
theorem created_amounts (handId player : Text) (street : Street) (kind : ActionKind)
    (index : Nat) (amount : Float) (hand : Hand) (smallBlind bigBlind buyIn : Float)
    (room : Room) (stem : Text) (session : Session) :
    ((Action.form handId player street amount).Judges
        { handId, player, street, kind, index, amount }
        (Action.create handId player street kind index amount) ∧
      ∀ action, Action.create handId player street kind index amount = .ok action →
        (0 ≤ action.amount ↔ action.amount.isNaN = false)) ∧
    (hand.form.Judges hand hand.create ∧
      ∀ made, hand.create = .ok made → (0 ≤ made.ante ↔ made.ante.isNaN = false)) ∧
    ((Stakes.cash smallBlind bigBlind).form.Judges
        (.cash smallBlind bigBlind) (Stakes.createCash smallBlind bigBlind) ∧
      ∀ made, Stakes.createCash smallBlind bigBlind = .ok made →
        ∀ blind ∈ made.amounts, (0 ≤ blind ↔ blind.isNaN = false)) ∧
    ((Stakes.tournament buyIn).form.Judges
        (.tournament buyIn) (Stakes.createTournament buyIn) ∧
      ∀ made, Stakes.createTournament buyIn = .ok made →
        ∀ paid ∈ made.amounts, (0 ≤ paid ↔ paid.isNaN = false)) ∧
    ∀ (game : StakedGame) (after : Session),
      (History.readGame room stem).runFrom session = (.ok (some game), after) →
        (∀ stake ∈ game.stakes.amounts, 0 ≤ stake) ∧
          ∀ played ∈ game.game.hands, ∀ cost ∈ played.amounts, 0 ≤ cost := by
  refine ⟨?_, ?_, ?_, ?_, fun game after run => ?_⟩
  · have judged := Action.judges_create handId player street kind index amount
    refine ⟨judged, fun action created => ?_⟩
    obtain ⟨rfl, -⟩ := judged.accepted action created
    exact judged.zero_le_iff created List.mem_cons_self
  · have judged := hand.judges_create
    refine ⟨judged, fun made created => ?_⟩
    obtain ⟨rfl, -⟩ := judged.accepted made created
    exact judged.zero_le_iff created List.mem_cons_self
  · have judged := Stakes.judges_createCash smallBlind bigBlind
    refine ⟨judged, fun made created => ?_⟩
    obtain ⟨rfl, -⟩ := judged.accepted made created
    simp only [Stakes.amounts, List.forall_mem_cons]
    exact ⟨judged.zero_le_iff created List.mem_cons_self,
      judged.zero_le_iff created (List.mem_cons_of_mem _ List.mem_cons_self), by simp⟩
  · have judged := Stakes.judges_createTournament buyIn
    refine ⟨judged, fun made created => ?_⟩
    obtain ⟨rfl, -⟩ := judged.accepted made created
    simp only [Stakes.amounts, List.forall_mem_cons]
    exact ⟨judged.zero_le_iff created List.mem_cons_self, by simp⟩
  · exact History.yields_readGame_amounts room stem session (some game) after run game rfl

/-- An action and a hand whose amount is no number are made, an action that costs less
than nothing is refused by a rule that it breaks, and a hand that is read has amounts
that are at least zero. -/
theorem created_amounts_no_number :
    let nothing : Float := 0 / 0
    let hand : Hand :=
      { id := "1", kind := .cash, site := "Winamax", table := "Nice", button := .unknown,
        maxSeats := 5, level := 0, ante := nothing, start := ⟨2014, 11, 12, 23, 49, 45⟩,
        heroCards := .free, board := .free, seats := .ofNames ["ann"], actions := [],
        winners := .free }
    let text : Text := "Winamax Poker - HandId: #1 - 2014/11/12 23:49:45\n" ++
      "Table: 'Nice' 5-max\nSeat 1: ann (5)\nann posts ante 1\nann bets 2\n"
    (∃ action, Action.create "1" "ann" .flop .bet 0 nothing = .ok action ∧ ¬ 0 ≤ action.amount) ∧
    (∃ made, hand.create = .ok made ∧ ¬ 0 ≤ made.ante) ∧
    (∃ error, Action.create "1" "ann" .flop .bet 0 (-1) = .error error ∧
      (Action.form "1" "ann" .flop (-1)).Breaks error) ∧
    ∃ game after, (History.readGame .winamax []).runFrom
        { cursor := .ofText [] text, roster := { site := Room.winamax.siteName } } =
          (.ok (some game), after) ∧
      (game.game.hands.flatMap Hand.amounts).length = 2 ∧
      ∀ hand ∈ game.game.hands, ∀ amount ∈ hand.amounts, 0 ≤ amount := by
  intro nothing hand text
  generalize hsession : Session.mk _ _ _ = session
  have created := fun amount => created_amounts "1" "ann" .flop .bet 0 amount hand 0 0 0
    .winamax [] session
  have noNumber : nothing.isNaN = true := by decide +kernel
  have notBelow : ¬ nothing < 0 := by decide +kernel
  refine ⟨?_, ?_, ?_, ?_⟩
  · have made : Action.create "1" "ann" .flop .bet 0 nothing =
        .ok { handId := "1", player := "ann", street := .flop, kind := .bet, index := 0,
              amount := nothing } := by
      simp [Action.create, notBelow]
    refine ⟨_, made, fun least => ?_⟩
    have isNumber := ((created nothing).1.2 _ made).1 least
    rw [noNumber] at isNumber
    cases isNumber
  · have occupied : hand.seats.toList.all List.isEmpty = false := by decide +kernel
    have made : hand.create = .ok hand := by
      have texts : hand.id.isEmpty = false ∧ hand.site.isEmpty = false ∧
          hand.table.isEmpty = false := by decide +kernel
      rw [Hand.create, texts.1, texts.2.1, texts.2.2, occupied, if_neg notBelow]
      rfl
    refine ⟨hand, made, fun least => ?_⟩
    have isNumber := ((created 0).2.1.2 hand made).1 least
    rw [noNumber] at isNumber
    cases isNumber
  · have refused : Action.create "1" "ann" .flop .bet 0 (-1) = .error (.negativeAmount .bet) := by
      have below : (-1 : Float) < 0 := by decide +kernel
      simp [Action.create, below]
    exact ⟨_, refused, (created (-1)).1.1.refused _ refused⟩
  · have counts : ((History.readGame .winamax []).runFrom session).1.map (Option.map fun game =>
        (game.game.hands.flatMap Hand.amounts).length) = .ok (some 2) := by
      rw [← hsession]
      decide +kernel
    rcases run : (History.readGame .winamax []).runFrom session with ⟨answer, after⟩
    rw [run] at counts
    obtain ⟨game?, rfl, told⟩ := Reading.exists_of_map_eq_ok counts
    obtain ⟨game, rfl, two⟩ := Option.map_eq_some_iff.1 told
    exact ⟨game, after, rfl, two, ((created 0).2.2.2.2 game after run).2⟩

end HandHistory
