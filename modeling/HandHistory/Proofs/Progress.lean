import HandHistory.Proofs.Games
import HandHistory.Proofs.Loading
import HandHistory.Proofs.Words

/-!
# What is told of a load

Whoever waits for a load is told how many files there are, of every file that it has
been read, and that the load is over. A file of which nothing is told is one whose task
is abandoned, and a single defect does that: a table line whose seat count stands right
behind a character of several bytes, `TableLine.SplitsCount`.

Every other error is reported by the task itself. `Reading.Steady` says so of each part
of a reading, and what is left is the way to the table line: the hands in front of it
are read, and its own header is accepted (`History.CutGame`).
-/

namespace HandHistory

/-! ## Table lines -/

namespace TableLine

/-- The seat count stands right behind a character of several bytes. The name of the
table is enclosed by the first and the last quote, and the count ends in front of the
first `-max` behind the name. -/
def SplitsCount (line : Text) : Prop :=
  ∃ (lead table front digits rest : Text) (wide : Char),
    let behind := (front ++ wide :: digits) ++ "-max" ++ rest
    let opened := table ++ "'" ++ behind
    line = lead ++ "'" ++ opened ∧
    Text.StandsFirst "'" lead opened ∧ Text.StandsLast "'" table behind ∧
    Text.StandsFirst "-max" (front ++ wide :: digits) rest ∧
    (∀ d ∈ digits, Numeral.isDigit d = true) ∧ 1 < wide.utf8Size

theorem utf8Size_of_isDigit {c : Char} (digit : Numeral.isDigit c = true) : c.utf8Size = 1 := by
  rw [Numeral.isDigit, Char.isDigit, Bool.and_eq_true] at digit
  have small : c.val ≤ 57 := by simpa using digit.2
  rw [Char.utf8Size_eq_one_iff]
  rw [UInt32.le_iff_toNat_le] at small ⊢
  exact Nat.le_trans small (by decide)

theorem seatCount_steady {file line digits : Text} {e : ParseError}
    (refused : seatCount file line digits = .error e) : e.abandons = false := by
  rw [seatCount] at refused
  split at refused
  · cases refused
  · cases refused
    rfl

/-- A count cannot be read on just behind a wide character. -/
theorem trailingCount_abandons_iff {file line text : Text} :
    (∃ e, trailingCount file line text = .error e ∧ e.abandons = true) ↔
      ∃ (front digits : Text) (wide : Char), text = front ++ wide :: digits ∧
        (∀ d ∈ digits, Numeral.isDigit d = true) ∧ 1 < wide.utf8Size := by
  have turned : text = (text.reverse.dropWhile Numeral.isDigit).reverse ++
      (text.reverse.takeWhile Numeral.isDigit).reverse := by
    rw [← List.reverse_append, List.takeWhile_append_dropWhile, List.reverse_reverse]
  have counted : ∀ d ∈ text.reverse.takeWhile Numeral.isDigit, Numeral.isDigit d = true :=
    fun d hd => List.all_eq_true.1 List.all_takeWhile d hd
  -- a wide character in front of digits is what stops the run of digits at the end
  have stops : ∀ {front digits : Text} {wide : Char}, text = front ++ wide :: digits →
      (∀ d ∈ digits, Numeral.isDigit d = true) → 1 < wide.utf8Size →
      text.reverse.dropWhile Numeral.isDigit = wide :: front.reverse := by
    intro front digits wide split digit several
    have noDigit : ¬ Numeral.isDigit wide = true := by
      intro impossible
      rw [utf8Size_of_isDigit impossible] at several
      exact Nat.lt_irrefl 1 several
    have reversed : text.reverse = digits.reverse ++ wide :: front.reverse := by
      rw [split]
      simp
    rw [reversed, List.dropWhile_append_of_pos fun d hd => digit d (List.mem_reverse.1 hd),
      List.dropWhile_cons_of_neg noDigit]
  rw [trailingCount]
  cases before : text.reverse.dropWhile Numeral.isDigit with
  | nil =>
    refine iff_of_false ?_ ?_
    · rintro ⟨e, refused, abandons⟩
      rw [seatCount_steady refused] at abandons
      cases abandons
    · rintro ⟨front, digits, wide, split, digit, several⟩
      rw [stops split digit several] at before
      cases before
  | cons last more =>
    dsimp only
    by_cases several : 1 < last.utf8Size
    · rw [if_pos several]
      refine iff_of_true ⟨_, rfl, rfl⟩ ⟨more.reverse,
        (text.reverse.takeWhile Numeral.isDigit).reverse, last, ?_, ?_, several⟩
      · rw [before, List.reverse_cons, List.append_assoc, List.singleton_append] at turned
        exact turned
      · exact fun d hd => counted d (List.mem_reverse.1 hd)
    · rw [if_neg several]
      refine iff_of_false ?_ ?_
      · rintro ⟨e, refused, abandons⟩
        rw [seatCount_steady refused] at abandons
        cases abandons
      · rintro ⟨front, digits, wide, split, digit, wider⟩
        rw [stops split digit wider] at before
        cases before
        exact several wider

theorem ofFields_abandons_iff {file line : Text} {isRealMoney? : Option Bool} :
    (∃ e, ofFields file line isRealMoney? = .error e ∧ e.abandons = true) ↔ SplitsCount line := by
  constructor
  · rintro ⟨e, refused, abandons⟩
    rw [ofFields] at refused
    split at refused
    · cases refused
      cases abandons
    · next lead opened opens =>
      split at refused
      · cases refused
        cases abandons
      · next table behind closes =>
        split at refused
        · cases refused
          cases abandons
        · next counted rest ends =>
          cases count : trailingCount file line counted with
          | ok seats =>
            rw [count] at refused
            cases refused
          | error reason =>
            rw [count] at refused
            cases refused
            obtain ⟨front, digits, wide, rfl, digit, several⟩ :=
              trailingCount_abandons_iff.1 ⟨_, count, abandons⟩
            obtain ⟨rfl, firstMax⟩ := Text.cut?_eq_some_iff.1 ends
            obtain ⟨rfl, lastQuote⟩ := Text.cutLast?_eq_some_iff.1 closes
            obtain ⟨rfl, firstQuote⟩ := Text.cut?_eq_some_iff.1 opens
            exact ⟨lead, table, front, digits, rest, wide, rfl, firstQuote, lastQuote, firstMax,
              digit, several⟩
  · rintro ⟨lead, table, front, digits, rest, wide, rfl, firstQuote, lastQuote, firstMax, digit,
      several⟩
    obtain ⟨e, count, abandons⟩ := (@trailingCount_abandons_iff file
      (lead ++ "'" ++ (table ++ "'" ++ ((front ++ wide :: digits) ++ "-max" ++ rest))) _).2
        ⟨front, digits, wide, rfl, digit, several⟩
    refine ⟨e, ?_, abandons⟩
    rw [ofFields, Text.cut?_eq_some_iff.2 ⟨rfl, firstQuote⟩]
    dsimp only
    rw [Text.cutLast?_eq_some_iff.2 ⟨rfl, lastQuote⟩]
    dsimp only
    rw [Text.cut?_eq_some_iff.2 ⟨rfl, firstMax⟩]
    dsimp only
    rw [count]
    rfl

end TableLine

namespace Room

/-- What a table line begins with. -/
def tableLead : Room → Text
  | .winamax => "Table: "
  | .pokerStars => "Table '"

theorem readTableLine_of_lead {room : Room} {line : Text} (file : Text)
    (leads : Text.hasStart room.tableLead line = true) :
    ∃ isRealMoney?, room.readTableLine file line = TableLine.ofFields file line isRealMoney? := by
  cases room with
  | winamax => exact ⟨_, if_pos leads⟩
  | pokerStars => exact ⟨_, if_pos leads⟩

theorem readTableLine_of_not_lead {room : Room} {line : Text} (file : Text)
    (other : ¬ Text.hasStart room.tableLead line = true) :
    ∃ anchor, room.readTableLine file line = .error (.missingAnchor file anchor line) := by
  cases room with
  | winamax => exact ⟨_, if_neg other⟩
  | pokerStars => exact ⟨_, if_neg other⟩

theorem readTableLine_abandons_iff {room : Room} {file line : Text} :
    (∃ e, room.readTableLine file line = .error e ∧ e.abandons = true) ↔
      Text.hasStart room.tableLead line = true ∧ TableLine.SplitsCount line := by
  by_cases leads : Text.hasStart room.tableLead line = true
  · obtain ⟨isRealMoney?, fields⟩ := readTableLine_of_lead file leads
    rw [and_iff_right leads, fields]
    exact TableLine.ofFields_abandons_iff
  · obtain ⟨anchor, refused⟩ := readTableLine_of_not_lead file leads
    rw [refused]
    refine iff_of_false ?_ fun both => leads both.1
    rintro ⟨e, same, abandons⟩
    cases same
    cases abandons

/-- A header that is refused is reported. -/
theorem readHeader_steady {room : Room} {file line : Text} {e : ParseError}
    (refused : room.readHeader file line = .error e) : e.abandons = false := by
  cases room with
  | winamax =>
    rw [readHeader, readHeaderWith, Winamax.readHeader] at refused
    dsimp only at refused
    split at refused
    · cases refused
      rfl
    · split at refused
      · split at refused
        · cases refused
          rfl
        · split at refused
          · cases refused
            rfl
          · cases refused
      · cases refused
        rfl
  | pokerStars =>
    unfold readHeader readHeaderWith PokerStars.readHeader at refused
    dsimp only at refused
    split at refused
    · cases refused
      rfl
    · split at refused
      · cases refused
        rfl
      · split at refused
        · cases refused
          rfl
        · cases refused

end Room

/-! ## Readings that report their errors -/

namespace Reading

variable {α β : Type}

/-- Every error of the reading is one that is reported. -/
def Steady (x : Reading α) : Prop :=
  ∀ session e after, x.runFrom session = (.error e, after) → e.abandons = false

/-- From a session, the reading comes to an error that abandons its task. -/
def AbandonsFrom (session : Session) (x : Reading α) : Prop :=
  ∃ e after, x.runFrom session = (.error e, after) ∧ e.abandons = true

theorem steady_pure (a : α) : Steady (pure a) := by
  intro session e after run
  cases run

theorem steady_throw {e : ParseError} (reported : e.abandons = false) :
    Steady (throw e : Reading α) := by
  intro session other after run
  cases run
  exact reported

theorem Steady.bind {x : Reading α} {f : α → Reading β} (hx : Steady x)
    (hf : ∀ a, Steady (f a)) : Steady (x >>= f) := by
  intro session e after run
  rw [runFrom_bind] at run
  rcases first : x.runFrom session with ⟨reason | a, between⟩
  · rw [first] at run
    cases run
    exact hx session e after first
  · rw [first] at run
    exact hf a between e after run

theorem steady_record (events : List Event) : Steady (record events) := by
  intro session e after run
  cases run

theorem steady_ofModel (file : Text) (result : Except ModelError α) :
    Steady (ofModel file result) := by
  cases result with
  | ok a => exact steady_pure a
  | error source => exact steady_throw rfl

theorem steady_enrol (file name : Text) : Steady (enrol file name) := by
  intro session e after run
  rw [runFrom_enrol] at run
  split at run <;> cases run
  rfl

theorem steady_markHero (file name : Text) : Steady (markHero file name) := by
  intro session e after run
  rw [runFrom_markHero] at run
  split at run <;> cases run
  rfl

/-- No line of a body abandons the task. -/
theorem inherited_steady : Inherited @Steady where
  pure := steady_pure
  bind := Steady.bind
  record := steady_record
  ofModel := steady_ofModel
  invalidCard := fun _ _ => steady_throw rfl
  enrol := steady_enrol
  markHero := fun file name _ => steady_markHero file name

theorem Steady.not_abandonsFrom {x : Reading α} (hx : Steady x) (session : Session) :
    ¬ AbandonsFrom session x := by
  rintro ⟨e, after, run, abandons⟩
  rw [hx session e after run] at abandons
  cases abandons

theorem abandonsFrom_bind_of_ok {session after : Session} {x : Reading α} {a : α}
    (hx : x.runFrom session = (.ok a, after)) (f : α → Reading β) :
    AbandonsFrom session (x >>= f) ↔ AbandonsFrom after (f a) := by
  rw [AbandonsFrom, runFrom_bind_of_ok hx, AbandonsFrom]

theorem abandonsFrom_of_error {session after : Session} {x : Reading α} {e : ParseError}
    (hx : x.runFrom session = (.error e, after)) :
    AbandonsFrom session x ↔ e.abandons = true := by
  rw [AbandonsFrom, hx]
  simp

theorem not_abandonsFrom_of_ok {session after : Session} {x : Reading α} {a : α}
    (hx : x.runFrom session = (.ok a, after)) : ¬ AbandonsFrom session x := by
  rintro ⟨e, last, run, -⟩
  rw [hx] at run
  cases run

theorem abandonsFrom_bind_of_error {session after : Session} {x : Reading α} {e : ParseError}
    (hx : x.runFrom session = (.error e, after)) (f : α → Reading β) :
    AbandonsFrom session (x >>= f) ↔ e.abandons = true :=
  abandonsFrom_of_error (runFrom_bind_of_error hx f)

theorem abandonsFrom_map {session : Session} {x : Reading α} (f : α → β) :
    AbandonsFrom session (f <$> x) ↔ AbandonsFrom session x := by
  rw [← bind_pure_comp]
  rcases run : x.runFrom session with ⟨e | a, after⟩
  · rw [abandonsFrom_bind_of_error run, abandonsFrom_of_error run]
  · rw [abandonsFrom_bind_of_ok run]
    exact iff_of_false ((steady_pure (f a)).not_abandonsFrom after) (not_abandonsFrom_of_ok run)

end Reading

/-! ## Hands -/

namespace History

open Reading

variable {room : Room} {session : Session}

theorem steady_readBody {context : HandContext} {draft : Draft} (lines : List Text) :
    Steady (readBody room context lines draft) := by
  induction lines generalizing draft with
  | nil => exact steady_pure draft
  | cons line lines ih =>
    rw [readBody]
    split
    · exact steady_pure draft
    · have moved : Steady nextLine := by
        intro session e after run
        cases run
      exact moved.bind fun _ =>
        Steady.bind (Draft.inherited_consume inherited_steady line) fun draft => ih

theorem steady_readRest (header : Header) (table : TableLine) :
    Steady (readRest room header table) := by
  have here : Steady get := by
    intro session e after run
    cases run
  rw [readRest]
  refine here.bind fun session => (steady_readBody _).bind fun draft => ?_
  refine Steady.bind (Draft.inherited_addSilentWinners inherited_steady) fun draft => ?_
  exact (steady_ofModel _ _).bind fun hand => steady_pure _

/-- A block with a header that is accepted and a table line that splits its seat count. -/
def CutBlock (room : Room) (file : Text) (block : List Text) : Prop :=
  ∃ (header line : Text) (body : List Text) (logged : Logged Header),
    block = header :: line :: body ∧ room.readHeader file header = .ok logged ∧
      Text.hasStart room.tableLead line = true ∧ TableLine.SplitsCount line

/-- Reading a hand abandons the task just if its block is cut. -/
theorem readHand_abandons_iff {header : Text} {ahead : List Text}
    (found : session.cursor.rest.dropWhile (fun line => !room.isHandStart line) =
      header :: ahead) :
    AbandonsFrom session (readHand room) ↔ CutBlock room session.cursor.file
      (header :: ahead.takeWhile fun line => !room.isHandStart line) := by
  obtain ⟨there, events, head, on⟩ := runFrom_readHeader found
  rw [readHand]
  cases accepted : room.readHeader session.cursor.file header with
  | error e =>
    rw [accepted] at head
    rw [abandonsFrom_bind_of_error head, Room.readHeader_steady accepted]
    refine iff_of_false Bool.false_ne_true ?_
    rintro ⟨first, line, body, logged, split, read, -⟩
    rw [← (List.cons.inj split).1, accepted] at read
    cases read
  | ok logged =>
    rw [accepted] at head
    rw [abandonsFrom_bind_of_ok head]
    cases ahead with
    | nil =>
      have stuck := @runFrom_readTableLine_of_nil room
        { session with cursor := there, events } on.ahead_eq
      rw [abandonsFrom_bind_of_error stuck]
      refine iff_of_false Bool.false_ne_true ?_
      rintro ⟨first, line, body, logged, split, -⟩
      cases split
    | cons line lines =>
      obtain ⟨next, run, onNext⟩ := @runFrom_readTableLine_of_cons room
        { session with cursor := there, events } line lines on.ahead_eq
      rw [on.file_eq] at run
      have splits : CutBlock room session.cursor.file
          (header :: (line :: lines).takeWhile fun line => !room.isHandStart line) ↔
          ∃ e, room.readTableLine session.cursor.file line = .error e ∧ e.abandons = true := by
        rw [Room.readTableLine_abandons_iff]
        constructor
        · rintro ⟨first, second, body, logged, split, -, splits⟩
          by_cases start : room.isHandStart line = true
          · rw [List.takeWhile_cons_of_neg (by simp [start])] at split
            cases split
          · rw [List.takeWhile_cons_of_pos (by simp [start])] at split
            cases split
            exact splits
        · intro splits
          have inside : ¬ room.isHandStart line = true := by
            intro start
            obtain ⟨anchor, refused⟩ :=
              @readTableLine_of_isHandStart room session.cursor.file line start
            obtain ⟨e, same, abandons⟩ := Room.readTableLine_abandons_iff.2 splits
            rw [refused] at same
            cases same
            cases abandons
          rw [List.takeWhile_cons_of_pos (by simp [inside])]
          exact ⟨header, line, _, logged, rfl, accepted, splits⟩
      rw [splits]
      cases read : room.readTableLine session.cursor.file line with
      | error e =>
        rw [read] at run
        rw [abandonsFrom_bind_of_error run]
        simp
      | ok table =>
        rw [read] at run
        rw [abandonsFrom_bind_of_ok run]
        refine iff_of_false ((steady_readRest logged.value table).not_abandonsFrom _) ?_
        rintro ⟨e, impossible, -⟩
        cases impossible

/-- Some block is cut, and every block in front of it has a hand. -/
inductive ReachesCut (room : Room) (file : Text) : (cut : List (List Text)) → Prop
  | here {block : List Text} {cut : List (List Text)} (isCut : CutBlock room file block) :
    ReachesCut room file (block :: cut)
  | later {block : List Text} {cut : List (List Text)} {record : HandRecord}
    (read : readBlock room file block = .ok record) (reached : ReachesCut room file cut) :
    ReachesCut room file (block :: cut)

/-- The blocks of a file whose reading abandons the task: the first one is cut, or it has
a hand that describes a game and a cut block is reached behind it. -/
inductive CutGame (room : Room) (stem file : Text) : (cut : List (List Text)) → Prop
  | first {block : List Text} {cut : List (List Text)} (isCut : CutBlock room file block) :
    CutGame room stem file (block :: cut)
  | later {block : List Text} {cut : List (List Text)} {record : HandRecord} {empty : StakedGame}
    (read : readBlock room file block = .ok record)
    (described : (GameData.gather room record.header record.table stem).emptyGame room.siteName =
      .ok empty)
    (reached : ReachesCut room file cut) : CutGame room stem file (block :: cut)

theorem reachesCut_cons_iff {file : Text} {block : List Text} {cut : List (List Text)} :
    ReachesCut room file (block :: cut) ↔ CutBlock room file block ∨
      ∃ record, readBlock room file block = .ok record ∧ ReachesCut room file cut := by
  constructor
  · intro reached
    cases reached with
    | here isCut => exact Or.inl isCut
    | later read reached => exact Or.inr ⟨_, read, reached⟩
  · rintro (isCut | ⟨record, read, reached⟩)
    · exact .here isCut
    · exact .later read reached

/-- The hand that a search has found, with what can come of it. -/
theorem readHand_abandons_of_seek {header : Text} {ahead : List Text} {there : Cursor}
    (hrest : session.cursor.rest.dropWhile (fun line => !room.isHandStart line) =
      header :: ahead)
    (sought : session.cursor.seek room.isHandStart = (true, there)) :
    AbandonsFrom { session with cursor := there } (readHand room) ↔
      CutBlock room session.cursor.file
        (header :: ahead.takeWhile fun line => !room.isHandStart line) := by
  obtain ⟨sameFile, standing⟩ := Cursor.dropWhile_rest_of_seek hrest sought
  have iff := @readHand_abandons_iff room { session with cursor := there } header ahead standing
  rwa [sameFile] at iff

theorem readOthers_abandons_iff {bound : Nat} {game : StakedGame}
    (ready : session.roster.site ≠ [])
    (enough : (blocks room.isHandStart session.cursor.rest).length ≤ bound) :
    AbandonsFrom session (readOthers room bound game) ↔
      ReachesCut room session.cursor.file (blocks room.isHandStart session.cursor.rest) := by
  induction bound generalizing session game with
  | zero =>
    rw [List.eq_nil_of_length_eq_zero (Nat.le_zero.1 enough)]
    refine iff_of_false ((steady_pure game).not_abandonsFrom session) ?_
    rintro ⟨⟩
  | succ bound ih =>
    rw [readOthers, abandonsFrom_bind_of_ok (runFrom_seek _ session)]
    cases hrest : session.cursor.rest.dropWhile fun line => !room.isHandStart line with
    | nil =>
      rw [Cursor.seek_of_none hrest, blocks_eq_nil hrest]
      refine iff_of_false ((steady_pure game).not_abandonsFrom _) ?_
      rintro ⟨⟩
    | cons header ahead =>
      obtain ⟨-, found⟩ := blocks_of_dropWhile_cons hrest
      obtain ⟨there, result, after, sought, run, accepted, behind⟩ :=
        runFrom_readHand_of_seek ready hrest
      have cuts := readHand_abandons_of_seek hrest sought
      rw [found, List.length_cons] at enough
      rw [sought, if_pos rfl, found]
      cases result with
      | error e =>
        rw [abandonsFrom_bind_of_error run, reachesCut_cons_iff, ← cuts, abandonsFrom_of_error run]
        refine (or_iff_left ?_).symm
        rintro ⟨record, read, -⟩
        cases (accepted record).2 read
      | ok record =>
        have left := behind record rfl
        have fewer : (blocks room.isHandStart after.cursor.rest).length ≤ bound := by
          rw [left.blocks_rest]
          omega
        rw [abandonsFrom_bind_of_ok run, ih (left.site ▸ ready) fewer, left.blocks_rest,
          left.file_eq, reachesCut_cons_iff, ← cuts, or_iff_right (not_abandonsFrom_of_ok run)]
        constructor
        · exact fun reached => ⟨record, (accepted record).1 rfl, reached⟩
        · rintro ⟨_, -, reached⟩
          exact reached

theorem cutGame_cons_iff {stem file : Text} {block : List Text} {cut : List (List Text)} :
    CutGame room stem file (block :: cut) ↔ CutBlock room file block ∨
      ∃ record empty, readBlock room file block = .ok record ∧
        (GameData.gather room record.header record.table stem).emptyGame room.siteName =
          .ok empty ∧ ReachesCut room file cut := by
  constructor
  · intro reached
    cases reached with
    | first isCut => exact Or.inl isCut
    | later read described reached => exact Or.inr ⟨_, _, read, described, reached⟩
  · rintro (isCut | ⟨record, empty, read, described, reached⟩)
    · exact .first isCut
    · exact .later read described reached

/-- Reading a file abandons the task just if the way to a cut block is free. -/
theorem readGame_abandons_iff {stem : Text} (ready : session.roster.site ≠ []) :
    AbandonsFrom session (readGame room stem) ↔
      CutGame room stem session.cursor.file (blocks room.isHandStart session.cursor.rest) := by
  rw [readGame, abandonsFrom_bind_of_ok (runFrom_get session),
    abandonsFrom_bind_of_ok (runFrom_seek _ session)]
  cases hrest : session.cursor.rest.dropWhile fun line => !room.isHandStart line with
  | nil =>
    rw [Cursor.seek_of_none hrest, blocks_eq_nil hrest]
    have nothing : Steady
        (do log (.noHandFound session.cursor.file); pure (none : Option StakedGame)) :=
      (steady_record _).bind fun _ => steady_pure _
    refine iff_of_false (nothing.not_abandonsFrom _) ?_
    rintro ⟨⟩
  | cons header ahead =>
    obtain ⟨-, found⟩ := blocks_of_dropWhile_cons hrest
    obtain ⟨there, result, after, sought, run, accepted, behind⟩ :=
      runFrom_readHand_of_seek ready hrest
    have cuts := readHand_abandons_of_seek hrest sought
    rw [sought, if_pos rfl, found, cutGame_cons_iff, ← cuts]
    cases result with
    | error e =>
      have refused : (readHandAndData room stem).runFrom { session with cursor := there } =
          (.error e, after) := runFrom_bind_of_error run _
      rw [abandonsFrom_bind_of_error refused, abandonsFrom_of_error run]
      refine (or_iff_left ?_).symm
      rintro ⟨record, empty, read, -⟩
      cases (accepted record).2 read
    | ok record =>
      have left := behind record rfl
      have both : (readHandAndData room stem).runFrom { session with cursor := there } =
          (.ok (record.hand, .gather room record.header record.table stem), after) :=
        runFrom_bind_of_ok run _
      have read := (accepted record).1 rfl
      rw [abandonsFrom_bind_of_ok both, or_iff_right (not_abandonsFrom_of_ok run)]
      dsimp only
      cases described : (GameData.gather room record.header record.table stem).emptyGame
          room.siteName with
      | error source =>
        have refused : (Reading.ofModel session.cursor.file
            (.error source : Except ModelError StakedGame)).runFrom after =
            (.error (.model session.cursor.file source), after) := rfl
        rw [abandonsFrom_bind_of_error refused]
        refine iff_of_false Bool.false_ne_true ?_
        rintro ⟨other, empty, same, impossible, -⟩
        rw [read] at same
        cases same
        rw [described] at impossible
        cases impossible
      | ok empty =>
        have standing : (Reading.ofModel session.cursor.file (.ok empty)).runFrom after =
            (.ok empty, after) := rfl
        rw [abandonsFrom_bind_of_ok standing, abandonsFrom_bind_of_ok (runFrom_get after)]
        have others := @readOthers_abandons_iff room after _ (empty.addHand record.hand)
          (left.site ▸ ready) left.length_blocks_le
        rw [left.blocks_rest, left.file_eq] at others
        rw [abandonsFrom_map, others]
        constructor
        · exact fun reached => ⟨record, empty, read, described, reached⟩
        · rintro ⟨_, _, -, -, reached⟩
          exact reached

end History

/-! ## Files -/

namespace HistoryFile

/-- The file is read, and the way to a cut block of it is free. -/
def Cuts (room : Room) (tree : FileTree) (path : Text) : Prop :=
  room.acceptsStem (Path.stem path) = true ∧ ∃ bytes, tree.read path = .ok bytes ∧
    History.CutGame room (Path.stem path) (Path.shortName path)
      (blocks room.isHandStart (Text.lines (Text.Utf8.decode bytes)))

/-- Whether the task of a file is abandoned. -/
def isAbandoned (room : Room) (tree : FileTree) (path : Text) : Bool :=
  match (load room tree path).value with
  | .abandoned => true
  | .finished _ => false

theorem isAbandoned_iff_game {room : Room} {tree : FileTree} {path : Text} :
    isAbandoned room tree path = true ↔
      ∃ e, (read room tree path { site := room.siteName }).game = .error e ∧
        e.abandons = true := by
  unfold isAbandoned load
  dsimp only
  cases (read room tree path { site := room.siteName }).game with
  | ok game? => cases game? <;> simp
  | error cause => by_cases abandons : cause.abandons = true <;> simp [abandons]

/-- The task of a file is abandoned just if the file cuts it off. -/
theorem isAbandoned_iff_cuts {room : Room} {tree : FileTree} {path : Text} :
    isAbandoned room tree path = true ↔ Cuts room tree path := by
  rw [isAbandoned_iff_game, Cuts]
  unfold read
  dsimp only
  by_cases accepted : room.acceptsStem (Path.stem path) = true
  · rw [if_neg (by simp [accepted]), and_iff_right accepted]
    cases bytesRead : tree.read path with
    | error fault =>
      refine iff_of_false ?_ ?_
      · rintro ⟨e, same, abandons⟩
        cases same
        cases abandons
      · rintro ⟨bytes, impossible, -⟩
        cases impossible
    | ok bytes =>
      have game := @History.readGame_abandons_iff room
        { cursor := .ofText (Path.shortName path) (Text.Utf8.decode bytes)
          roster := { site := room.siteName } } (Path.stem path) room.siteName_ne_nil
      constructor
      · rintro ⟨e, failed, abandons⟩
        exact ⟨bytes, rfl, game.1 ⟨e, _, Prod.ext failed rfl, abandons⟩⟩
      · rintro ⟨other, same, cut⟩
        cases same
        obtain ⟨e, after, run, abandons⟩ := game.2 cut
        exact ⟨e, congrArg Prod.fst run, abandons⟩
  · rw [if_pos (by simp [accepted])]
    refine iff_of_false ?_ fun both => accepted both.1
    rintro ⟨e, impossible, -⟩
    cases impossible

end HistoryFile

/-! ## Loads -/

namespace Loader

/-- What is told of the files that a running loader has dispatched: a file is processed
unless its task is abandoned. -/
theorem flatMap_progressOf (room : Room) (tree : FileTree) (files : List Text) :
    (files.map (HistoryFile.load room tree)).flatMap progressOf =
      List.replicate (files.countP fun path => !HistoryFile.isAbandoned room tree path)
        .fileProcessed := by
  induction files with
  | nil => rfl
  | cons path files ih =>
    rw [List.map_cons, List.flatMap_cons, ih, List.countP_cons, progressOf, HistoryFile.isAbandoned]
    cases (HistoryFile.load room tree path).value with
    | finished site? => simp [List.replicate_succ]
    | abandoned => simp

variable {runtime : Runtime}

/-- The number of files is told if there are any to be read, and the end is always told. A
pool may choose the order of its tasks; whoever counts what is told of them does not see it. -/
theorem progress_load (loader : Loader runtime) (tree : FileTree) (dir : Text)
    (shared : SharedPool runtime) :
    (loader.load tree dir false shared).1.progress =
      (if loader.files tree dir shared = [] then []
        else [.filesCounted (loader.files tree dir shared).length]) ++
      List.replicate ((loader.files tree dir shared).countP fun path =>
        !HistoryFile.isAbandoned loader.room tree path) .fileProcessed ++ [.finished] := by
  obtain ⟨nothing, events, report⟩ | ⟨some, pool, events, report⟩ :=
    loader.load_cases tree dir false shared
  · rw [report, nothing]
    rfl
  · have tasks := @tasks_dispatch runtime (loader.running false) rfl tree
      (loader.files tree dir shared)
    have told : ((pool.ends (((loader.running false).dispatch tree
        (loader.files tree dir shared)).tasks.filterMap id)).flatMap progressOf).Perm
          (List.replicate ((loader.files tree dir shared).countP fun path =>
            !HistoryFile.isAbandoned loader.room tree path) .fileProcessed) := by
      rw [tasks, ← flatMap_progressOf]
      exact (pool.ends_perm _).flatMap_right _
    rw [report, if_neg some, loadFiles, List.perm_replicate.1 told]
    rfl

/-- The files of a directory that count as processed are those whose tasks are not abandoned,
and a task is abandoned just if its file cuts it off. So much of the protocol holds of every
load that has a pool: the number of files is told once if there are any, and the end is told
once. A load without a pool tells its end alone. -/
theorem load_progress (room : Room) (pool? : Option (Pool runtime))
    (steps : List (LoaderStep runtime)) (tree : FileTree) (dir : Text)
    (shared : SharedPool runtime) :
    let loader := after room pool? steps
    (∀ path, HistoryFile.isAbandoned room tree path = true ↔ HistoryFile.Cuts room tree path) ∧
    (loader.hasPool shared = true → (loader.load tree dir false shared).1.progress =
      match room.historyDir? tree dir with
      | none => [.finished]
      | some history =>
        (if room.eligible tree history = [] then []
          else [.filesCounted (room.eligible tree history).length]) ++
        List.replicate ((room.eligible tree history).countP fun path =>
          !HistoryFile.isAbandoned room tree path) .fileProcessed ++ [.finished]) ∧
    (loader.hasPool shared = false →
      (loader.load tree dir false shared).1.progress = [.finished]) := by
  intro loader
  have sameRoom : loader.room = room := (sameLoader_after room pool? steps).room
  refine ⟨fun path => HistoryFile.isAbandoned_iff_cuts, fun has => ?_, fun hasNone => ?_⟩
  · rw [progress_load, files_of_hasPool has, sameRoom]
    cases shape : room.historyDir? tree dir with
    | none =>
      rw [Room.getD_historyFiles?_of_rejected shape]
      rfl
    | some history =>
      have sorted := room.listing_perm tree history
      have none_iff : room.listing tree history = [] ↔ room.eligible tree history = [] := by
        rw [← List.length_eq_zero_iff, sorted.length_eq, List.length_eq_zero_iff]
      rw [Room.getD_historyFiles? shape, sorted.length_eq, sorted.countP_eq]
      simp only [none_iff]
  · rw [progress_load, files_of_not_hasPool hasNone]
    rfl

/-- A byte that is no text stands for a wide character in front of the seat count of the
first of two files. Both are counted, and one is processed. -/
theorem load_progress_of_wide :
    let file (count : Text) : FileNode := .file
      (("PokerStars Hand #1: Hold'em No Limit ($1/$2) - 2014/10/31 0:45:01\nTable 'A' ".toList ++
        count ++ "-max\nSeat 1: ann ($5)\n".toList).map fun c => c.toNat.toUInt8)
    let tree : FileTree := { root := .dir [("d".toList, .dir
      [("a.txt".toList, file "\xff9"), ("b.txt".toList, file "9")])] }
    let loader : Loader .sequential := after .pokerStars none []
    HistoryFile.isAbandoned .pokerStars tree "d/a.txt" = true ∧
    (loader.load tree "d" false {}).1.progress = [.filesCounted 2, .fileProcessed, .finished] := by
  intro file tree loader
  have has : loader.hasPool {} = true := loader.hasPool_of_start (fun _ => rfl) fun _ => by simp
  obtain ⟨-, onPool, -⟩ := load_progress .pokerStars none [] tree "d" {}
  refine ⟨by decide +kernel, ?_⟩
  rw [onPool has]
  decide +kernel

end Loader

end HandHistory
