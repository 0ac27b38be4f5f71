import HandHistory.Cursor
import Mathlib.Logic.Function.Iterate

/-!
# Walks of a cursor

A cursor is moved to the next line, or on to the first line that is wanted. However it is
moved, there is one way through a text, `Cursor.along`: in front of the first line, on line
after line, and behind the last one, where it ends. A move to the next line is a step on this
way (`next_along`), and a search is a number of such steps over lines that are not wanted
(`seek_along`).

So a walk of any moves and searches ends on the way, `exists_walk_along`, and what its next
move answers is told by the lines that are still in front of it.
-/

namespace HandHistory.Cursor

/-- A move of a walk. -/
inductive Move where
  | next
  | seek (wanted : Text → Bool)

/-- What a move answers, and where it leads. -/
def make : Move → Cursor → Bool × Cursor
  | .next => nextLine
  | .seek wanted => seek wanted

/-- The end of a walk. -/
def walk (moves : List Move) (cursor : Cursor) : Cursor :=
  moves.foldl (fun cursor move => (cursor.make move).2) cursor

/-- The number of the line that the cursor stands on: none in front of the first line, the
number of all lines behind the last one. -/
def position (cursor : Cursor) : Option Nat :=
  match cursor.place with
  | .start => none
  | .line _ | .finished => some cursor.index

/-- The number of the line behind the one that the cursor stands on. -/
def upcoming (cursor : Cursor) : Nat := cursor.position.elim 0 (· + 1)

/-- The number of the first line that a search looks at. -/
def searched (cursor : Cursor) : Nat :=
  match cursor.place with
  | .line _ => cursor.index
  | .start | .finished => cursor.upcoming

variable {file : Text} {lines : List Text} {wanted : Text → Bool}

/-! ## The way through the lines -/

/-- The cursor after a number of steps. -/
def along (file : Text) (lines : List Text) : (steps : Nat) → Cursor
  | 0 => { file, ahead := lines }
  | steps + 1 =>
    match lines.drop steps with
    | line :: ahead => { file, index := steps, place := .line line, ahead }
    | [] => { file, index := lines.length, place := .finished, ahead := [] }

theorem drop_eq_cons {i : Nat} {line : Text} (there : lines[i]? = some line) :
    lines.drop i = line :: lines.drop (i + 1) := by
  obtain ⟨inside, rfl⟩ := List.getElem?_eq_some_iff.1 there
  exact List.drop_eq_getElem_cons inside

theorem along_line {i : Nat} {line : Text} (there : lines[i]? = some line) :
    along file lines (i + 1) =
      { file, index := i, place := .line line, ahead := lines.drop (i + 1) } := by
  rw [along, drop_eq_cons there]

theorem along_finished {steps : Nat} (passed : lines.length < steps) :
    along file lines steps =
      { file, index := lines.length, place := .finished, ahead := [] } := by
  cases steps with
  | zero => omega
  | succ i =>
    have nothing : lines.drop i = [] := List.drop_eq_nil_iff.2 (by omega)
    rw [along, nothing]

/-- The places of the way: in front of the lines, on one of them, behind them. -/
theorem along_cases (lines : List Text) (steps : Nat) :
    steps = 0 ∨ (∃ i line, steps = i + 1 ∧ lines[i]? = some line) ∨ lines.length < steps := by
  cases steps with
  | zero => exact Or.inl rfl
  | succ i =>
    cases there : lines[i]? with
    | some line => exact Or.inr (Or.inl ⟨i, line, rfl, there⟩)
    | none =>
      have outside := List.getElem?_eq_none_iff.1 there
      exact Or.inr (Or.inr (by omega))

theorem ahead_along (steps : Nat) : (along file lines steps).ahead = lines.drop steps := by
  obtain rfl | ⟨i, line, rfl, there⟩ | passed := along_cases lines steps
  · rfl
  · rw [along_line there]
  · rw [along_finished passed, List.drop_eq_nil_iff.2 (by omega)]

theorem next_along (steps : Nat) :
    (along file lines steps).next = along file lines (steps + 1) := by
  obtain rfl | ⟨i, line, rfl, there⟩ | passed := along_cases lines steps
  · cases lines <;> rfl
  · obtain ⟨inside, -⟩ := List.getElem?_eq_some_iff.1 there
    rw [along_line there]
    cases after : lines[i + 1]? with
    | some other =>
      rw [along_line after]
      simp only [next, drop_eq_cons after]
      rfl
    | none =>
      have last : lines.length = i + 1 := by
        have outside := List.getElem?_eq_none_iff.1 after
        omega
      rw [along_finished (by omega)]
      simp only [next, List.drop_eq_nil_iff.2 (Nat.le_of_eq last), last]
      rfl
  · rw [along_finished passed, along_finished (by omega)]
    rfl

/-- The way is that of single moves. -/
theorem iterate_next (file : Text) (lines : List Text) (steps : Nat) :
    next^[steps] (along file lines 0) = along file lines steps := by
  induction steps with
  | zero => rfl
  | succ steps ih => rw [Function.iterate_succ_apply', ih, next_along]

/-! ## Searches -/

/-- Of the lines from a number on, line `i` is the first that is wanted. -/
structure FirstWanted (wanted : Text → Bool) (lines : List Text) (start i : Nat) (line : Text) :
    Prop where
  start_le : start ≤ i
  there : lines[i]? = some line
  isWanted : wanted line = true
  passed : ∀ j other, start ≤ j → j < i → lines[j]? = some other → wanted other = false

/-- Of the lines from a number on, none is wanted. -/
def NoneWanted (wanted : Text → Bool) (lines : List Text) (start : Nat) : Prop :=
  ∀ j line, start ≤ j → lines[j]? = some line → wanted line = false

theorem FirstWanted.of_passed {start i : Nat} {line other : Text}
    (first : FirstWanted wanted lines (start + 1) i line) (here : lines[start]? = some other)
    (unwanted : wanted other = false) : FirstWanted wanted lines start i line := by
  refine ⟨Nat.le_of_succ_le first.start_le, first.there, first.isWanted, ?_⟩
  intro j another reached before there
  by_cases same : j = start
  · rw [same, here] at there
    cases there
    exact unwanted
  · exact first.passed j another (by omega) before there

theorem NoneWanted.of_passed {start : Nat} {other : Text}
    (absent : NoneWanted wanted lines (start + 1)) (here : lines[start]? = some other)
    (unwanted : wanted other = false) : NoneWanted wanted lines start := by
  intro j another reached there
  by_cases same : j = start
  · rw [same, here] at there
    cases there
    exact unwanted
  · exact absent j another (by omega) there

theorem noneWanted_of_length_le {start : Nat} (passed : lines.length ≤ start) :
    NoneWanted wanted lines start := by
  intro j line reached there
  obtain ⟨inside, -⟩ := List.getElem?_eq_some_iff.1 there
  omega

/-- A search among the lines from a number on. -/
theorem seekIn_drop {start : Nat} (bounded : start ≤ lines.length) :
    (∃ i line, FirstWanted wanted lines start i line ∧
      seekIn wanted file start (lines.drop start) = (true, along file lines (i + 1))) ∨
    (NoneWanted wanted lines start ∧
      seekIn wanted file start (lines.drop start) =
        (false, along file lines (lines.length + 1))) := by
  induction left : lines.length - start generalizing start with
  | zero =>
    have atEnd : start = lines.length := by omega
    refine Or.inr ⟨noneWanted_of_length_le (by omega), ?_⟩
    rw [along_finished (by omega), atEnd, List.drop_length]
    rfl
  | succ left ih =>
    have here : lines[start]? = some lines[start] := List.getElem?_eq_getElem (by omega)
    rw [drop_eq_cons here, seekIn]
    cases decided : wanted lines[start] with
    | true =>
      refine Or.inl ⟨start, lines[start], ⟨Nat.le_refl start, here, decided, ?_⟩, ?_⟩
      · intro j other reached before
        omega
      · rw [if_pos rfl, along_line here]
    | false =>
      rw [if_neg Bool.false_ne_true]
      obtain ⟨i, line, first, found⟩ | ⟨absent, ended⟩ := @ih (start + 1) (by omega) (by omega)
      · exact Or.inl ⟨i, line, first.of_passed here decided, found⟩
      · exact Or.inr ⟨absent.of_passed here decided, ended⟩

/-- A search from any place of the way. -/
theorem seek_along {steps : Nat} (bounded : steps ≤ lines.length + 1) :
    (∃ i line, FirstWanted wanted lines (along file lines steps).searched i line ∧
      steps ≤ i + 1 ∧ (along file lines steps).seek wanted = (true, along file lines (i + 1))) ∨
    (NoneWanted wanted lines (along file lines steps).searched ∧
      (along file lines steps).seek wanted = (false, along file lines (lines.length + 1))) := by
  obtain rfl | ⟨i, line, rfl, here⟩ | passed := along_cases lines steps
  · obtain ⟨i, line, first, found⟩ | missed := @seekIn_drop file lines wanted 0 (Nat.zero_le _)
    · exact Or.inl ⟨i, line, first, Nat.zero_le _, found⟩
    · exact Or.inr missed
  · obtain ⟨inside, -⟩ := List.getElem?_eq_some_iff.1 here
    rw [along_line here]
    simp only [seek, searched]
    cases decided : wanted line with
    | true =>
      refine Or.inl ⟨i, line, ⟨Nat.le_refl i, here, decided, ?_⟩, Nat.le_refl _, ?_⟩
      · intro j other reached before
        omega
      · rw [if_pos rfl, along_line here]
    | false =>
      rw [if_neg Bool.false_ne_true]
      obtain ⟨j, other, first, found⟩ | ⟨absent, ended⟩ :=
        @seekIn_drop file lines wanted (i + 1) inside
      · have behind := first.start_le
        exact Or.inl ⟨j, other, first.of_passed here decided, by omega, found⟩
      · exact Or.inr ⟨absent.of_passed here decided, ended⟩
  · rw [along_finished passed, along_finished (Nat.lt_succ_self _)]
    exact Or.inr ⟨noneWanted_of_length_le (Nat.le_succ _), rfl⟩

/-! ## Walks -/

/-- A move goes on along the way, or stays where it is. -/
theorem exists_make_along {steps : Nat} (bounded : steps ≤ lines.length + 1) (move : Move) :
    ∃ further, steps ≤ further ∧ further ≤ lines.length + 1 ∧
      ((along file lines steps).make move).2 = along file lines further := by
  cases move with
  | next =>
    by_cases passed : lines.length < steps
    · refine ⟨steps, Nat.le_refl steps, bounded, ?_⟩
      rw [along_finished passed]
      rfl
    · exact ⟨steps + 1, by omega, by omega, next_along steps⟩
  | seek wanted =>
    obtain ⟨i, line, first, ahead, found⟩ | ⟨-, ended⟩ :=
      @seek_along file lines wanted steps bounded
    · obtain ⟨inside, -⟩ := List.getElem?_eq_some_iff.1 first.there
      exact ⟨i + 1, ahead, by omega, congrArg Prod.snd found⟩
    · exact ⟨lines.length + 1, bounded, Nat.le_refl _, congrArg Prod.snd ended⟩

theorem exists_walk_along {steps : Nat} (bounded : steps ≤ lines.length + 1)
    (moves : List Move) :
    ∃ further, steps ≤ further ∧ further ≤ lines.length + 1 ∧
      (along file lines steps).walk moves = along file lines further := by
  induction moves generalizing steps with
  | nil => exact ⟨steps, Nat.le_refl steps, bounded, rfl⟩
  | cons move moves ih =>
    obtain ⟨there, ahead, inside, moved⟩ := exists_make_along bounded move
    obtain ⟨further, more, last, walked⟩ := @ih there inside
    refine ⟨further, Nat.le_trans ahead more, last, ?_⟩
    rw [← walked, ← moved]
    rfl

theorem position_along (steps : Nat) :
    (along file lines (steps + 1)).position = some (min steps lines.length) := by
  obtain impossible | ⟨i, line, same, here⟩ | passed := along_cases lines (steps + 1)
  · omega
  · obtain rfl : steps = i := by omega
    obtain ⟨inside, -⟩ := List.getElem?_eq_some_iff.1 here
    rw [along_line here, Nat.min_eq_left (Nat.le_of_lt inside)]
    rfl
  · rw [along_finished passed, Nat.min_eq_right (by omega)]
    rfl

theorem position_along_le {steps further : Nat} (ahead : steps ≤ further) :
    (along file lines steps).position ≤ (along file lines further).position := by
  cases steps with
  | zero => exact Option.none_le
  | succ steps =>
    obtain ⟨further, rfl⟩ : ∃ last, further = last + 1 := ⟨further - 1, by omega⟩
    rw [position_along, position_along, Option.some_le_some]
    omega

theorem upcoming_along {steps : Nat} (bounded : steps ≤ lines.length + 1) :
    (along file lines steps).upcoming = steps := by
  cases steps with
  | zero => rfl
  | succ steps =>
    rw [upcoming, position_along, Nat.min_eq_left (by omega)]
    rfl

theorem index_along_le {steps : Nat} : (along file lines steps).index ≤ lines.length := by
  obtain rfl | ⟨i, line, rfl, here⟩ | passed := along_cases lines steps
  · exact Nat.zero_le _
  · obtain ⟨inside, -⟩ := List.getElem?_eq_some_iff.1 here
    rw [along_line here]
    exact Nat.le_of_lt inside
  · exact Nat.le_of_eq (congrArg Cursor.index (along_finished passed))

theorem current_along (steps : Nat) :
    (along file lines (steps + 1)).current = lines[steps]?.getD [] := by
  cases here : lines[steps]? with
  | some line =>
    rw [along_line here]
    rfl
  | none =>
    have outside := List.getElem?_eq_none_iff.1 here
    rw [along_finished (by omega)]
    rfl

theorem current_of_position {steps : Nat} (bounded : steps ≤ lines.length + 1) :
    (along file lines steps).current =
      ((along file lines steps).position.bind (lines[·]?)).getD [] := by
  cases steps with
  | zero => rfl
  | succ steps =>
    rw [current_along, position_along, Nat.min_eq_left (by omega)]
    rfl

theorem fst_nextLine_along (steps : Nat) :
    (along file lines steps).nextLine.1 = true ↔ steps < lines.length := by
  simp [nextLine, ahead_along]

theorem snd_nextLine_along (steps : Nat) :
    (along file lines steps).nextLine.2 = along file lines (steps + 1) := next_along steps

/-- The cursor is behind the last line, where no move leads on. -/
structure AtEnd (lines : List Text) (cursor : Cursor) : Prop where
  position_eq : cursor.position = some lines.length
  finished : cursor.isFinished = true
  stays : ∀ moves move, (cursor.walk moves).make move = (false, cursor)

theorem atEnd_along (file : Text) (lines : List Text) :
    AtEnd lines (along file lines (lines.length + 1)) := by
  refine ⟨?_, ?_, ?_⟩
  · rw [position_along, Nat.min_self]
  · rw [along_finished (Nat.lt_succ_self _)]
    rfl
  · intro moves move
    obtain ⟨further, ahead, bounded, walked⟩ := exists_walk_along (Nat.le_refl _) moves
    obtain rfl := Nat.le_antisymm bounded ahead
    rw [walked, along_finished (Nat.lt_succ_self _)]
    cases move with
    | next => rfl
    | seek wanted => rfl

/-- What a cursor tells and what its moves answer, by the lines of its text. -/
structure Orderly (lines : List Text) (cursor : Cursor) : Prop where
  index_le : cursor.index ≤ lines.length
  current_eq : cursor.current = (cursor.position.bind (lines[·]?)).getD []
  peek?_eq : cursor.peek? = lines[cursor.upcoming]?
  nextLine_iff : cursor.nextLine.1 = true ↔ cursor.upcoming < lines.length
  nextLine_line : cursor.nextLine.1 = true →
    cursor.peek? = some cursor.nextLine.2.current ∧
    cursor.nextLine.2.position = some cursor.upcoming
  nextLine_end : cursor.nextLine.1 = false → cursor.nextLine.2.AtEnd lines
  seek_iff : ∀ wanted, (cursor.seek wanted).1 = true ↔
    ∃ i line, cursor.searched ≤ i ∧ lines[i]? = some line ∧ wanted line = true
  seek_line : ∀ wanted, (cursor.seek wanted).1 = true →
    ∃ i line, FirstWanted wanted lines cursor.searched i line ∧
      (cursor.seek wanted).2.position = some i ∧ (cursor.seek wanted).2.current = line
  seek_end : ∀ wanted, (cursor.seek wanted).1 = false → (cursor.seek wanted).2.AtEnd lines

theorem orderly_along {steps : Nat} (bounded : steps ≤ lines.length + 1) :
    (along file lines steps).Orderly lines where
  index_le := index_along_le
  current_eq := current_of_position bounded
  peek?_eq := by rw [peek?, ahead_along, List.head?_drop, upcoming_along bounded]
  nextLine_iff := by rw [fst_nextLine_along, upcoming_along bounded]
  nextLine_line := by
    intro moved
    have inside := (fst_nextLine_along steps).1 moved
    rw [upcoming_along bounded, peek?, ahead_along, List.head?_drop, snd_nextLine_along]
    constructor
    · rw [current_along, List.getElem?_eq_getElem inside]
      rfl
    · rw [position_along, Nat.min_eq_left (Nat.le_of_lt inside)]
  nextLine_end := by
    intro stuck
    have outside : lines.length ≤ steps := by
      rw [← Bool.not_eq_true, fst_nextLine_along] at stuck
      omega
    have passed : along file lines (steps + 1) = along file lines (lines.length + 1) := by
      rw [along_finished (by omega), along_finished (Nat.lt_succ_self _)]
    rw [snd_nextLine_along, passed]
    exact atEnd_along file lines
  seek_iff := by
    intro wanted
    obtain ⟨i, line, first, -, found⟩ | ⟨absent, ended⟩ :=
      @seek_along file lines wanted steps bounded
    · rw [found]
      exact iff_of_true rfl ⟨i, line, first.start_le, first.there, first.isWanted⟩
    · rw [ended]
      refine iff_of_false Bool.false_ne_true ?_
      rintro ⟨i, line, reached, there, isWanted⟩
      rw [absent i line reached there] at isWanted
      cases isWanted
  seek_line := by
    intro wanted found
    obtain ⟨i, line, first, -, stopped⟩ | ⟨-, ended⟩ :=
      @seek_along file lines wanted steps bounded
    · obtain ⟨inside, -⟩ := List.getElem?_eq_some_iff.1 first.there
      refine ⟨i, line, first, ?_, ?_⟩
      · rw [stopped, position_along, Nat.min_eq_left (Nat.le_of_lt inside)]
      · rw [stopped, current_along, first.there]
        rfl
    · rw [ended] at found
      cases found
  seek_end := by
    intro wanted missed
    obtain ⟨i, line, -, -, stopped⟩ | ⟨-, ended⟩ :=
      @seek_along file lines wanted steps bounded
    · rw [stopped] at missed
      cases missed
    · rw [ended]
      exact atEnd_along file lines

/-- However a cursor on a text is moved, it tells and answers what the lines of the text say,
it never goes back, and it is on the way of single steps, which comes to the lines of the
text one by one and in their order. -/
theorem orderly_walk (file text : Text) (moves : List Move) :
    let lines := Text.lines text
    let start := ofText file text
    let cursor := start.walk moves
    cursor.Orderly lines ∧
    (∀ more, cursor.position ≤ (cursor.walk more).position) ∧
    (∃ steps, cursor = next^[steps] start) ∧
    (List.range lines.length).map (fun i => (next^[i + 1] start).current) = lines := by
  intro lines start cursor
  have onWay : ∀ steps, next^[steps] start = along file lines steps := iterate_next file lines
  obtain ⟨steps, -, bounded, walked⟩ := exists_walk_along (Nat.zero_le _) moves
  have there : cursor = along file lines steps := walked
  refine ⟨there ▸ orderly_along bounded, ?_, ⟨steps, there.trans (onWay steps).symm⟩, ?_⟩
  · intro more
    obtain ⟨further, ahead, -, moved⟩ := exists_walk_along bounded more
    rw [there, moved]
    exact position_along_le ahead
  · refine List.ext_getElem? fun i => ?_
    simp only [onWay, current_along, List.getElem?_map]
    by_cases inside : i < lines.length
    · rw [List.getElem?_range inside, Option.map_some, List.getElem?_eq_getElem inside,
        Option.getD_some]
    · rw [List.getElem?_eq_none (by simpa using inside), List.getElem?_eq_none (by omega)]
      rfl

/-- A text without lines ends with the first move, whatever is looked for. -/
example : let start := ofText [] []
    start.isFinished = false ∧ start.nextLine.1 = false ∧ start.nextLine.2.isFinished = true ∧
      (start.seek fun _ => true).1 = false := by
  decide

end HandHistory.Cursor
