import HandHistory.Proofs.Words
import HandHistory.Text.Wildcard

/-!
# What a wildcard pattern matches

`Fits` says what a pattern stands for: a text fits if it comes from the pattern by
putting some text in the place of every star. Matching never backs up, and decides
this nevertheless. A piece between two stars may as well be taken at its leftmost
place, because whatever stood between this place and another one is left to the
star behind the piece (`Filled.exists_of_append`).

The same matching can be done with offsets in bytes, where a cut may miss the text
or fall inside a character. It never does: every offset is the size of what has been
found in the text before (`isMatchInBytes?_eq`).
-/

namespace HandHistory.Text

/-! ## Offsets in bytes -/

/-- Cuts a text behind so many bytes; this fails behind the end of the text and inside of
a character. -/
def cutAtByte? : Nat → Text → Option (Text × Text)
  | offset, [] => if offset = 0 then some ([], []) else none
  | offset, c :: text =>
    if offset = 0 then some ([], c :: text)
    else if offset < c.utf8Size then none
    else (cutAtByte? (offset - c.utf8Size) text).map fun (front, rest) => (c :: front, rest)

/-- The text from a byte offset on. -/
def sliceFrom? (start : Nat) (text : Text) : Option Text := (cutAtByte? start text).map Prod.snd

/-- The text between two byte offsets. -/
def slice? (start stop : Nat) (text : Text) : Option Text :=
  if stop < start then none
  else (sliceFrom? start text).bind fun rest => (cutAtByte? (stop - start) rest).map Prod.fst

/-- A cut behind what a text begins with does not fail. -/
theorem cutAtByte?_append (front rest : Text) :
    cutAtByte? (utf8Size front) (front ++ rest) = some (front, rest) := by
  induction front with
  | nil => cases rest <;> rfl
  | cons c front ih =>
    have wide := c.utf8Size_pos
    have more : ¬ utf8Size (c :: front) = 0 := by rw [utf8Size]; omega
    have beyond : ¬ utf8Size (c :: front) < c.utf8Size := by rw [utf8Size]; omega
    have left : utf8Size (c :: front) - c.utf8Size = utf8Size front := by rw [utf8Size]; omega
    rw [List.cons_append, cutAtByte?, if_neg more, if_neg beyond, left, ih]
    rfl

theorem sliceFrom?_append (front rest : Text) :
    sliceFrom? (utf8Size front) (front ++ rest) = some rest := by
  rw [sliceFrom?, cutAtByte?_append]
  rfl

theorem slice?_append (front middle rest : Text) :
    slice? (utf8Size front) (utf8Size front + utf8Size middle) (front ++ middle ++ rest) =
      some middle := by
  have order : ¬ utf8Size front + utf8Size middle < utf8Size front := by omega
  rw [slice?, if_neg order, List.append_assoc, sliceFrom?_append, Nat.add_sub_cancel_left,
    Option.bind_some, cutAtByte?_append]
  rfl

namespace Wildcard

/-! ## What a pattern stands for -/

/-- The text comes from the pattern by putting some text in the place of every star. -/
inductive Fits : (pattern text : Text) → Prop
  | nil : Fits [] []
  | char {pattern text : Text} {c : Char} (plain : c ≠ '*') (rest : Fits pattern text) :
      Fits (c :: pattern) (c :: text)
  | star {pattern text : Text} (run : Text) (rest : Fits pattern text) :
      Fits ('*' :: pattern) (run ++ text)

/-- Pieces, each behind some run of characters. -/
inductive Filled : (pieces : List Text) → (text : Text) → Prop
  | nil : Filled [] []
  | cons {pieces : List Text} {text : Text} (run piece : Text) (rest : Filled pieces text) :
      Filled (piece :: pieces) (run ++ piece ++ text)

variable {pattern text : Text} {pieces : List Text}

theorem exists_filled_of_fits (fits : Fits pattern text) : ∃ first others rest,
    fields '*' pattern = first :: others ∧ text = first ++ rest ∧ Filled others rest := by
  induction fits with
  | nil => exact ⟨[], [], [], rfl, rfl, .nil⟩
  | @char pattern text c plain _ ih =>
    obtain ⟨first, others, rest, hfields, rfl, filled⟩ := ih
    refine ⟨c :: first, others, rest, ?_, rfl, filled⟩
    rw [fields] at hfields ⊢
    rw [fieldsBy, if_neg (by simp [plain]), hfields]
    rfl
  | @star pattern text run _ ih =>
    obtain ⟨first, others, rest, hfields, rfl, filled⟩ := ih
    refine ⟨[], first :: others, run ++ (first ++ rest), ?_, rfl, ?_⟩
    · rw [fields] at hfields ⊢
      rw [fieldsBy, if_pos (by simp), hfields]
    · rw [← List.append_assoc]
      exact .cons run first filled

theorem fits_of_filled {first : Text} {others : List Text} {rest : Text}
    (hfields : fields '*' pattern = first :: others) (filled : Filled others rest) :
    Fits pattern (first ++ rest) := by
  induction pattern generalizing first others rest with
  | nil =>
    cases hfields
    cases filled
    exact .nil
  | cons c pattern ih =>
    obtain ⟨next, more, hnext⟩ := List.exists_cons_of_ne_nil (fieldsBy_ne_nil (· == '*') pattern)
    rw [fields, fieldsBy] at hfields
    split at hfields
    · next star =>
      obtain rfl := beq_iff_eq.1 star
      rw [hnext] at hfields
      cases hfields
      cases filled with
      | cons run _ behind =>
        rw [List.append_assoc]
        exact .star run (ih hnext behind)
    · next plain =>
      rw [hnext] at hfields
      cases hfields
      exact .char (by simpa using plain) (ih hnext filled)

/-- A text fits just if the first piece of the pattern begins it and the other pieces
follow, each behind some run. -/
theorem fits_iff_filled {first : Text} {others : List Text}
    (hfields : fields '*' pattern = first :: others) :
    Fits pattern text ↔ ∃ rest, text = first ++ rest ∧ Filled others rest := by
  constructor
  · intro fits
    obtain ⟨first', others', rest, hfields', rfl, filled⟩ := exists_filled_of_fits fits
    cases hfields.symm.trans hfields'
    exact ⟨rest, rfl, filled⟩
  · rintro ⟨rest, rfl, filled⟩
    exact fits_of_filled hfields filled

/-! ## Greedy matching -/

theorem filled_concat {last : Text} : Filled (pieces ++ [last]) text ↔
    ∃ front run, Filled pieces front ∧ text = front ++ run ++ last := by
  induction pieces generalizing text with
  | nil =>
    constructor
    · rintro (_ | ⟨run, _, ⟨⟩⟩)
      exact ⟨[], run, .nil, by simp⟩
    · rintro ⟨_, run, ⟨⟩, rfl⟩
      have one : Filled [last] (run ++ last ++ []) := .cons run last .nil
      rwa [List.append_nil] at one
  | cons piece pieces ih =>
    constructor
    · rintro (_ | ⟨run, _, behind⟩)
      obtain ⟨front, gap, filled, rfl⟩ := ih.1 behind
      exact ⟨run ++ piece ++ front, gap, .cons run piece filled, by simp⟩
    · rintro ⟨_, gap, ⟨⟩ | ⟨run, _, filled⟩, rfl⟩
      have whole := Filled.cons run piece (ih.2 ⟨_, gap, filled, rfl⟩)
      simpa using whole

/-- Whatever precedes pieces with runs belongs to the first run. -/
theorem Filled.exists_of_append (filled : Filled pieces text) (lead : Text) :
    ∃ front run, lead ++ text = front ++ run ∧ Filled pieces front := by
  cases filled with
  | nil => exact ⟨[], lead, by simp, .nil⟩
  | cons run piece behind =>
    refine ⟨_, [], ?_, .cons (lead ++ run) piece behind⟩
    simp

/-- Pieces are found in order just if they stand in the text with runs in front of each.
That each is taken at its leftmost place loses nothing. -/
theorem findInOrder_iff : findInOrder pieces text = true ↔
    ∃ front run, text = front ++ run ∧ Filled pieces front := by
  induction pieces generalizing text with
  | nil => exact ⟨fun _ => ⟨[], text, rfl, .nil⟩, fun _ => rfl⟩
  | cons piece pieces ih =>
    rw [findInOrder]
    constructor
    · intro found
      split at found
      · next before rest cut =>
        obtain ⟨front, run, rfl, filled⟩ := ih.1 found
        exact ⟨before ++ piece ++ front, run, by simp [cut?_eq_some cut], .cons before piece filled⟩
      · cases found
    · rintro ⟨_, run, rfl, ⟨⟩ | ⟨before, _, filled⟩⟩
      next front =>
      have occurs : before ++ piece ++ front ++ run = before ++ piece ++ (front ++ run) := by simp
      obtain ⟨first, rest, cut, earlier⟩ := exists_cut?_of_eq occurs
      rw [cut]
      refine ih.2 ?_
      -- the leftmost place leaves at least what the other one leaves
      have whole := cut?_eq_some cut
      have suffix : front ++ run <:+ rest := by
        refine List.suffix_of_suffix_length_le ⟨before ++ piece, occurs.symm⟩
          ⟨first ++ piece, whole.symm⟩ ?_
        have lengths := congrArg List.length whole
        simp only [List.length_append] at lengths ⊢
        omega
      obtain ⟨lead, rfl⟩ := suffix
      obtain ⟨begun, gap, same, stands⟩ := filled.exists_of_append lead
      exact ⟨begun, gap ++ run, by rw [← List.append_assoc, same, List.append_assoc], stands⟩

/-- Between an anchored first and last piece, matching looks for the others in order. -/
theorem isMatch_of_fields {first last : Text} {between : List Text}
    (hfields : fields '*' pattern = first :: (between ++ [last])) :
    isMatch pattern text = true ↔
      ∃ middle, text = first ++ (middle ++ last) ∧ findInOrder between middle = true := by
  obtain ⟨second, others, same⟩ := List.exists_cons_of_ne_nil (List.concat_ne_nil last between)
  rw [isMatch, hfields, same]
  dsimp only
  rw [← same, List.dropLast_concat, List.getLastD_concat]
  cases start : stripStart? first text with
  | none =>
    refine iff_of_false Bool.false_ne_true ?_
    rintro ⟨middle, rfl, -⟩
    rw [stripStart?_append] at start
    cases start
  | some rest =>
    obtain rfl := stripStart?_eq_some_iff.1 start
    cases stop : stripEnd? last rest with
    | none =>
      refine iff_of_false (by simp [stop]) ?_
      rintro ⟨middle, same, -⟩
      rw [List.append_cancel_left same, stripEnd?_append] at stop
      cases stop
    | some middle =>
      obtain rfl := stripEnd?_eq_some_iff.1 stop
      simp only [stop]
      constructor
      · intro found
        exact ⟨middle, rfl, found⟩
      · rintro ⟨other, same, found⟩
        rwa [List.append_cancel_right (List.append_cancel_left same)]

/-- A pattern without a star is matched by itself. -/
theorem isMatch_of_field {whole : Text} (hfields : fields '*' pattern = [whole]) :
    isMatch pattern text = true ↔ text = whole := by
  rw [isMatch, hfields]
  exact beq_iff_eq.trans eq_comm

theorem isMatch_eq_true_iff : isMatch pattern text = true ↔ Fits pattern text := by
  obtain ⟨first, others, hfields⟩ :=
    List.exists_cons_of_ne_nil (fieldsBy_ne_nil (· == '*') pattern)
  rw [fits_iff_filled hfields]
  rcases List.eq_nil_or_concat others with rfl | ⟨between, last, rfl⟩
  · rw [isMatch_of_field hfields]
    constructor
    · rintro rfl
      exact ⟨[], (List.append_nil text).symm, .nil⟩
    · rintro ⟨_, rfl, ⟨⟩⟩
      exact List.append_nil first
  · rw [List.concat_eq_append] at hfields ⊢
    rw [isMatch_of_fields hfields]
    constructor
    · rintro ⟨middle, rfl, found⟩
      obtain ⟨front, run, rfl, filled⟩ := findInOrder_iff.1 found
      exact ⟨_, rfl, filled_concat.2 ⟨front, run, filled, rfl⟩⟩
    · rintro ⟨rest, rfl, filled⟩
      obtain ⟨front, run, stands, rfl⟩ := filled_concat.1 filled
      exact ⟨front ++ run, rfl, findInOrder_iff.2 ⟨front, run, rfl, stands⟩⟩

/-! ## Matching by offsets -/

/-- The search for pieces in order, with the rest behind each piece cut out by offset. -/
def findInOrderInBytes? : List Text → Text → Option Bool
  | [], _ => some true
  | piece :: pieces, text =>
    match find? piece text with
    | some offset =>
      (sliceFrom? (offset + utf8Size piece) text).bind (findInOrderInBytes? pieces)
    | none => some false

/-- Matching with offsets in bytes. A guard on the sizes keeps the first piece and the last
one from overlapping; there is no answer if a cut fails. -/
def isMatchInBytes? (pattern text : Text) : Option Bool :=
  match fields '*' pattern with
  | first :: second :: others =>
    let between := (second :: others).dropLast
    let last := (second :: others).getLastD []
    if !hasStart first text || utf8Size text < utf8Size first + utf8Size last then some false
    else do
      let rest ← sliceFrom? (utf8Size first) text
      if !hasEnd last rest then return false
      let middle ← slice? (utf8Size first) (utf8Size text - utf8Size last) text
      findInOrderInBytes? between middle
  | _ => some (pattern == text)

theorem findInOrderInBytes?_eq (pieces : List Text) (text : Text) :
    findInOrderInBytes? pieces text = some (findInOrder pieces text) := by
  induction pieces generalizing text with
  | nil => rfl
  | cons piece pieces ih =>
    rw [findInOrderInBytes?, findInOrder, find?]
    cases found : cut? piece text with
    | none => rfl
    | some pair =>
      obtain ⟨front, rest⟩ := pair
      have whole := cut?_eq_some found
      have offset : utf8Size front + utf8Size piece = utf8Size (front ++ piece) :=
        (utf8Size_append front piece).symm
      rw [Option.map_some]
      dsimp only
      rw [offset, whole, sliceFrom?_append]
      exact ih rest

theorem isMatchInBytes?_eq (pattern text : Text) :
    isMatchInBytes? pattern text = some (isMatch pattern text) := by
  obtain ⟨first, others, hfields⟩ :=
    List.exists_cons_of_ne_nil (fieldsBy_ne_nil (· == '*') pattern)
  rcases List.eq_nil_or_concat others with rfl | ⟨between, last, rfl⟩
  · have same : pattern = first := by
      have joined := join_fields '*' pattern
      rw [show fields '*' pattern = [first] from hfields] at joined
      exact joined.symm
    rw [isMatchInBytes?, isMatch, show fields '*' pattern = [first] from hfields, same]
  · rw [List.concat_eq_append] at hfields
    obtain ⟨second, others, same⟩ := List.exists_cons_of_ne_nil (List.concat_ne_nil last between)
    rw [isMatchInBytes?, isMatch, show fields '*' pattern = _ from hfields, same]
    dsimp only
    rw [← same, List.dropLast_concat, List.getLastD_concat]
    rw [hasStart]
    cases start : stripStart? first text with
    | none => rfl
    | some rest =>
      obtain rfl := stripStart?_eq_some_iff.1 start
      have begins : sliceFrom? (utf8Size first) (first ++ rest) = some rest :=
        sliceFrom?_append first rest
      cases stop : stripEnd? last rest with
      | none =>
        have noEnd : hasEnd last rest = false := by rw [hasEnd, stop]; rfl
        simp [begins, noEnd, stop]
      | some middle =>
        obtain rfl := stripEnd?_eq_some_iff.1 stop
        have isEnd : hasEnd last (middle ++ last) = true := by rw [hasEnd, stop]; rfl
        have room : ¬ utf8Size (first ++ (middle ++ last)) < utf8Size first + utf8Size last := by
          rw [utf8Size_append, utf8Size_append]
          omega
        have size : utf8Size (first ++ (middle ++ last)) - utf8Size last =
            utf8Size first + utf8Size middle := by
          rw [utf8Size_append, utf8Size_append]
          omega
        have cut : slice? (utf8Size first) (utf8Size (first ++ (middle ++ last)) - utf8Size last)
            (first ++ (middle ++ last)) = some middle := by
          rw [size, ← List.append_assoc, slice?_append]
        simp [begins, isEnd, room, cut, stop, findInOrderInBytes?_eq]

/-- Matching decides whether a text fits a pattern, and the same matching by offsets in
bytes never cuts a text outside of it or inside of a character. -/
theorem isMatch_iff_fits (pattern text : Text) :
    (isMatch pattern text = true ↔ Fits pattern text) ∧
      isMatchInBytes? pattern text = some (isMatch pattern text) :=
  ⟨isMatch_eq_true_iff, isMatchInBytes?_eq pattern text⟩

end Wildcard

end HandHistory.Text
