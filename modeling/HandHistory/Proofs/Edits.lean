import HandHistory.Proofs.Layout
import Mathlib.Logic.Relation

/-!
# Edits of the layout

The edits of a text that change its layout only: other line ends, a byte order mark, and
inside of a hand blank lines, padded lines and another end behind the beginning of the
summary. None of them changes an outline, whence no sequence of them, done or undone,
changes what a file gives.
-/

namespace HandHistory

namespace Text

/-- A text with a carriage return in front of every line feed. -/
def withReturns (text : Text) : Text :=
  text.flatMap fun c => if c = '\n' then ['\r', '\n'] else [c]

variable {text : Text}

theorem withReturns_append (front rest : Text) :
    withReturns (front ++ rest) = withReturns front ++ withReturns rest :=
  List.flatMap_append

theorem withReturns_eq_self (single : '\n' ∉ text) : withReturns text = text := by
  induction text with
  | nil => rfl
  | cons c text ih =>
    obtain ⟨other, single⟩ := not_or.1 (mt List.mem_cons.2 single)
    rw [withReturns, List.flatMap_cons, if_neg (Ne.symm other)]
    exact congrArg (c :: ·) (ih single)

theorem withoutReturn_append (line : Text) : withoutReturn (line ++ ['\r']) = line := by
  have stripped : stripEnd? "\r" (line ++ ['\r']) = some line := stripEnd?_append line "\r"
  rw [withoutReturn, stripped]
  rfl

theorem withoutReturn_eq_self (plain : '\r' ∉ text) : withoutReturn text = text := by
  cases stripped : stripEnd? "\r" text with
  | none => rw [withoutReturn, stripped]; rfl
  | some front =>
    rw [stripEnd?_eq_some_iff.1 stripped] at plain
    exact absurd (List.mem_append_right front (List.mem_singleton_self '\r')) plain

theorem fieldsBy_newline {line : Text} (single : '\n' ∉ line) : fields '\n' line = [line] := by
  refine fieldsBy_eq_singleton fun c inside => ?_
  rw [beq_eq_false_iff_ne]
  rintro rfl
  exact single inside

/-- The first line of a text with its line feed. -/
theorem endLines_fields_append {line : Text} (single : '\n' ∉ line) (rest : Text) :
    endLines (fields '\n' (line ++ '\n' :: rest)) =
      withoutReturn line :: endLines (fields '\n' rest) := by
  have cut : fields '\n' (line ++ '\n' :: rest) = line :: fields '\n' rest := by
    rw [fields, fieldsBy_append (by decide), ← fields, fieldsBy_newline single]
    rfl
  obtain ⟨next, others, hnext⟩ := List.exists_cons_of_ne_nil (fieldsBy_ne_nil (· == '\n') rest)
  rw [cut, fields, hnext]
  rfl

/-- The line feeds of a text may be written with carriage returns. -/
theorem endLines_fields_withReturns (text : Text) (plain : '\r' ∉ text) :
    endLines (fields '\n' (withReturns text)) = endLines (fields '\n' text) := by
  by_cases more : '\n' ∈ text
  · obtain ⟨line, rest, rfl, single⟩ := List.eq_append_cons_of_mem more
    rw [List.mem_append, List.mem_cons, not_or, not_or] at plain
    have returned : withReturns (line ++ '\n' :: rest) =
        (line ++ ['\r']) ++ '\n' :: withReturns rest := by
      rw [withReturns_append, withReturns_eq_self single, List.append_assoc]
      rfl
    have stillSingle : '\n' ∉ line ++ ['\r'] := by simp [single]
    rw [returned, endLines_fields_append stillSingle, endLines_fields_append single,
      withoutReturn_append, withoutReturn_eq_self plain.1,
      endLines_fields_withReturns rest plain.2.2]
  · rw [withReturns_eq_self more]
termination_by text.length
decreasing_by
  subst_vars
  rw [List.length_append, List.length_cons]
  omega

theorem withoutMark_eq_self (unmarked : text.head? ≠ some '\ufeff') :
    withoutMark text = text := by
  unfold withoutMark
  split
  · exact absurd rfl unmarked
  · rfl

theorem lines_withReturns (plain : '\r' ∉ text) : lines (withReturns text) = lines text := by
  by_cases marked : text.head? = some '\ufeff'
  · obtain ⟨rest, rfl⟩ := List.head?_eq_some_iff.1 marked
    exact endLines_fields_withReturns rest fun inside => plain (List.mem_cons_of_mem _ inside)
  · have still : (withReturns text).head? ≠ some '\ufeff' := by
      cases text with
      | nil => simp [withReturns]
      | cons c text =>
        rw [withReturns, List.flatMap_cons]
        split
        · simp
        · exact marked
    rw [lines, lines, withoutMark_eq_self still, withoutMark_eq_self marked,
      endLines_fields_withReturns text plain]

/-- A text may begin with a byte order mark. -/
theorem lines_mark (unmarked : text.head? ≠ some '\ufeff') :
    lines ('\ufeff' :: text) = lines text := by
  rw [lines, lines, withoutMark_eq_self unmarked]
  rfl

end Text

/-! ## Edits -/

/-- Edits of the lines behind a header. -/
inductive HandEdit : List Text → List Text → Prop
  /-- A blank line is inserted behind the table line. -/
  | insertBlank (table : Text) (before : List Text) {blank : Text}
      (blanks : ∀ c ∈ blank, Text.isLineBlank c = true) :
      HandEdit (table :: before) (table :: (before ++ [blank]))
  /-- Blanks are put around a line of the body. -/
  | pad (table : Text) (before : List Text) (line : Text) {left right : Text}
      (blankLeft : ∀ c ∈ left, Text.isLineBlank c = true)
      (blankRight : ∀ c ∈ right, Text.isLineBlank c = true) :
      HandEdit (table :: (before ++ [line])) (table :: (before ++ [left ++ (line ++ right)]))
  /-- The lines behind the beginning of the summary become others. -/
  | afterSummary (before : List Text) {summary : Text} (opens : opensSummary summary = true)
      (old new : List Text) : HandEdit (before ++ summary :: old) (before ++ summary :: new)

/-- Edits of a text that change its layout only, and by which no line starts or stops being
the first one of a hand. -/
inductive Edit (room : Room) : Text → Text → Prop
  /-- Every line feed of a text without carriage returns is written with one. -/
  | returns {text : Text} (plain : '\r' ∉ text) : Edit room text (Text.withReturns text)
  /-- A byte order mark is put in front of a text that has none. -/
  | mark {text : Text} (unmarked : text.head? ≠ some '\ufeff') :
      Edit room text ('\ufeff' :: text)
  /-- Lines of one hand are edited. -/
  | hand {text edited header : Text} {front old new behind : List Text}
      (was : Text.lines text = front ++ header :: (old ++ behind))
      (becomes : Text.lines edited = front ++ header :: (new ++ behind))
      (start : room.isHandStart header = true)
      (inside : ∀ line ∈ old ++ new, room.isHandStart line = false)
      (changed : HandEdit old new) : Edit room text edited

theorem outline_congr {header table : Text} {body other : List Text}
    (same : essence body = essence other) :
    outline (header :: table :: body) = outline (header :: table :: other) := by
  rw [outline, outline, same]

/-- No edit changes the outline of its block, whatever else belongs to the block. -/
theorem HandEdit.outline_eq {old new : List Text} (changed : HandEdit old new) (header : Text)
    (behind : List Text) :
    outline (header :: (old ++ behind)) = outline (header :: (new ++ behind)) := by
  cases changed with
  | insertBlank table before blanks =>
    rw [List.cons_append, List.cons_append, List.append_assoc]
    refine outline_congr ?_
    refine essence_append_congr before ?_
    exact (essence_cons_of_blank (Text.trimLine_eq_nil blanks) behind).symm
  | pad table before line blankLeft blankRight =>
    rw [List.cons_append, List.cons_append, List.append_assoc, List.append_assoc]
    refine outline_congr ?_
    refine essence_append_congr before ?_
    exact essence_cons_congr (Text.trimLine_pad blankLeft blankRight line).symm rfl
  | afterSummary before opens old new =>
    rw [List.append_assoc, List.append_assoc]
    cases before with
    | nil =>
      show outline (_ :: _ :: (old ++ behind)) = outline (_ :: _ :: (new ++ behind))
      rw [outline, outline, if_pos opens, if_pos opens]
    | cons table before =>
      refine outline_congr (essence_append_congr before ?_)
      show essence (_ :: (old ++ behind)) = essence (_ :: (new ++ behind))
      rw [essence_cons_of_summary opens, essence_cons_of_summary opens]

/-- Edited lines of a hand give the outlines of the lines as they were. -/
theorem HandEdit.outlines_eq {room : Room} {header : Text} {old new : List Text}
    (changed : HandEdit old new) (start : room.isHandStart header = true)
    (inside : ∀ line ∈ old ++ new, room.isHandStart line = false) (front behind : List Text) :
    room.outlines (front ++ header :: (old ++ behind)) =
      room.outlines (front ++ header :: (new ++ behind)) := by
  rw [List.forall_mem_append] at inside
  have taken : ∀ lines : List Text, (∀ line ∈ lines, room.isHandStart line = false) →
      (lines ++ behind).takeWhile (fun line => !room.isHandStart line) =
        lines ++ behind.takeWhile fun line => !room.isHandStart line := fun lines other =>
    List.takeWhile_append_of_pos fun line hline => by simp [other line hline]
  rw [Room.outlines_append_cons start, Room.outlines_append_cons start,
    Room.outlines_cons start, Room.outlines_cons start, Room.outlines_append inside.1,
    Room.outlines_append inside.2, taken old inside.1, taken new inside.2, changed.outline_eq]

theorem Edit.outlines_eq {room : Room} {text edited : Text} (edit : Edit room text edited) :
    room.outlines (Text.lines text) = room.outlines (Text.lines edited) := by
  cases edit with
  | returns plain => rw [Text.lines_withReturns plain]
  | mark unmarked => rw [Text.lines_mark unmarked]
  | hand was becomes start inside changed =>
    rw [was, becomes]
    exact changed.outlines_eq start inside _ _

namespace History

/-- Whatever the texts that edits of the layout, done or undone, lead to: they give the
same game and leave the same players and events, or fail with the same error. -/
theorem readGame_of_edited (room : Room) (stem file : Text) (roster : Roster)
    {text edited : Text} (same : Relation.EqvGen (Edit room) text edited) :
    let read := fun text =>
      (readGame room stem).runFrom { cursor := .ofText file text, roster }
    (read edited).1 = (read text).1 ∧ (read edited).2.roster = (read text).2.roster ∧
      (read edited).2.events = (read text).2.events := by
  have outlines : room.outlines (Text.lines text) = room.outlines (Text.lines edited) := by
    induction same with
    | rel text edited edit => exact edit.outlines_eq
    | refl text => rfl
    | symm text edited _ ih => exact ih.symm
    | trans text between edited _ _ first second => exact first.trans second
  obtain ⟨result, last, here, there, before, after⟩ :=
    @readGame_eq_of_outlines room file text edited stem roster outlines
  dsimp only
  rw [before, after]
  exact ⟨rfl, rfl, rfl⟩

/-- A hand with a padded line, other line ends and a byte order mark. -/
theorem readGame_of_edited_padded :
    let header : Text := "Winamax Poker - HandId: #1 - 2014/11/12 23:49:45"
    let text : Text := header ++ "\nTable: 'Nice' 5-max\nSeat 1: ann (5)\n".toList
    let padded : Text := header ++ "\nTable: 'Nice' 5-max\n\t Seat 1: ann (5) \n".toList
    let read := fun text => (readGame .winamax []).runFrom
      { cursor := .ofText [] text, roster := { site := Room.winamax.siteName } }
    (read ('\ufeff' :: Text.withReturns padded)).1 = (read text).1 ∧
      (read text).1.map Option.isSome = .ok true := by
  intro header text padded read
  have pads : Edit .winamax text padded :=
    .hand (by decide +kernel : Text.lines text = [] ++ header ::
        (["Table: 'Nice' 5-max".toList, "Seat 1: ann (5)".toList] ++ []))
      (by decide +kernel : Text.lines padded = [] ++ header ::
        (["Table: 'Nice' 5-max".toList, "\t Seat 1: ann (5) ".toList] ++ []))
      (by decide +kernel) (by decide +kernel)
      (.pad "Table: 'Nice' 5-max".toList [] "Seat 1: ann (5)".toList
        (List.all_eq_true.1 (by decide : "\t ".toList.all Text.isLineBlank = true))
        (List.all_eq_true.1 (by decide : " ".toList.all Text.isLineBlank = true)))
  have returns : Edit .winamax padded (Text.withReturns padded) := .returns (by decide +kernel)
  have mark : Edit .winamax (Text.withReturns padded) ('\ufeff' :: Text.withReturns padded) :=
    .mark (by decide +kernel)
  have edited := (Relation.EqvGen.rel _ _ pads).trans _ _ _
    ((Relation.EqvGen.rel _ _ returns).trans _ _ _ (.rel _ _ mark))
  exact ⟨(readGame_of_edited .winamax [] [] { site := Room.winamax.siteName } edited).1,
    by decide +kernel⟩

end History

end HandHistory
