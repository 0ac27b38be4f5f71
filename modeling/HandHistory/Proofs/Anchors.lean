import HandHistory.Proofs.Words

/-!
# Anchors

A field of a line is found by its anchors, the texts that stand around it. There are two
common reasons why an anchor is found where it was written and not inside of another
field. Either the fields are separated by a character that the anchor does not have, so
that the anchor occurs in one of them or not at all (`cut?_append_cons`); or the field in
front lacks the second character of the anchor (`cut?_of_second`).
-/

namespace HandHistory.Text

variable {c : Char} {needle front text : Text}

/-! ## Across a character that an anchor does not have -/

theorem stripStart?_append_cons (other : c ∉ needle) (front rest : Text) :
    stripStart? needle (front ++ c :: rest) =
      (stripStart? needle front).map fun behind => behind ++ c :: rest := by
  induction needle generalizing front with
  | nil => rfl
  | cons k needle ih =>
    obtain ⟨different, other⟩ := not_or.1 (mt List.mem_cons.2 other)
    cases front with
    | nil => simp [stripStart?, Ne.symm different]
    | cons d front =>
      by_cases same : k = d
      · simpa [stripStart?, same] using ih other front
      · simp [stripStart?, same]

/-- An anchor that does not occur in front of a character that it does not have is
searched behind it. -/
theorem cut?_append_cons (other : c ∉ needle) (absent : has needle front = false)
    (rest : Text) : cut? needle (front ++ c :: rest) =
      (cut? needle rest).map fun found => (front ++ c :: found.1, found.2) := by
  induction front with
  | nil =>
    have here := stripStart?_append_cons other [] rest
    cases start : stripStart? needle [] with
    | some behind => simp [has, cut?, start] at absent
    | none =>
      rw [start] at here
      rw [List.nil_append] at here ⊢
      rw [cut?, here]
      rfl
  | cons d front ih =>
    have here := stripStart?_append_cons other (d :: front) rest
    rw [has, cut?] at absent
    cases start : stripStart? needle (d :: front) with
    | some behind => simp [start] at absent
    | none =>
      rw [start] at here absent
      rw [List.cons_append] at here ⊢
      rw [Option.isSome_map] at absent
      rw [cut?, here, ih absent, Option.map_map]
      rfl

/-- What follows an anchor is not changed by what is put in front. -/
theorem exists_cut?_append_cons (other : c ∉ needle) (absent : has needle front = false)
    {rest behind : Text} (found : ∃ before, cut? needle rest = some (before, behind)) :
    ∃ before, cut? needle (front ++ c :: rest) = some (before, behind) := by
  obtain ⟨before, found⟩ := found
  refine ⟨front ++ c :: before, ?_⟩
  rw [cut?_append_cons other absent, found]
  rfl

theorem has_append_cons (other : c ∉ needle) (front rest : Text) :
    has needle (front ++ c :: rest) = (has needle front || has needle rest) := by
  cases inside : has needle front with
  | false =>
    rw [has, cut?_append_cons other inside, Option.isSome_map, Bool.false_or, has]
  | true =>
    rw [has_eq_true_iff] at inside
    rw [Bool.true_or, has_eq_true_iff]
    exact inside.trans (List.prefix_append front (c :: rest)).isInfix

theorem has_eq_false_of_not_mem (wanted : c ∈ needle) (absent : c ∉ text) :
    has needle text = false := by
  rw [has, cut?_eq_none_of_not_mem wanted absent]
  rfl

/-- A character in front of a text counts only where the anchor begins with it. -/
theorem has_cons (other : needle.head? ≠ some c) (text : Text) :
    has needle (c :: text) = has needle text := by
  rw [Bool.eq_iff_iff, has_eq_true_iff, has_eq_true_iff, List.infix_cons_iff]
  constructor
  · rintro (start | inside)
    · obtain ⟨rest, hrest⟩ := start
      cases needle with
      | nil => exact List.nil_infix
      | cons k needle =>
        obtain ⟨rfl, -⟩ := List.cons.inj hrest
        exact absurd rfl other
    · exact inside
  · exact Or.inr

/-- A character behind a text counts only where the anchor ends with it. -/
theorem has_concat (other : needle.getLast? ≠ some c) (text : Text) :
    has needle (text ++ [c]) = has needle text := by
  rw [Bool.eq_iff_iff, has_eq_true_iff, has_eq_true_iff, List.infix_concat_iff]
  constructor
  · rintro (⟨front, hfront⟩ | inside)
    · rcases List.eq_nil_or_concat needle with rfl | ⟨start, k, rfl⟩
      · exact List.nil_infix
      · rw [List.concat_eq_append, ← List.append_assoc] at hfront
        obtain ⟨-, same⟩ := List.append_inj' hfront rfl
        rw [List.concat_eq_append, List.getLast?_concat, List.singleton_inj.1 same] at other
        exact absurd rfl other
    · exact inside
  · exact Or.inr

/-- A text between characters that the anchor does not have, when nothing around them
counts. -/
theorem has_between {opening closing : Char} (noOpening : opening ∉ needle)
    (noClosing : closing ∉ needle) {rest : Text} (before : has needle front = false)
    (behind : has needle rest = false) :
    has needle (front ++ opening :: (text ++ closing :: rest)) = has needle text := by
  rw [has_append_cons noOpening, has_append_cons noClosing, before, behind, Bool.false_or,
    Bool.or_false]

theorem has_append_of_head {lead : Text} (other : ∀ c ∈ lead, needle.head? ≠ some c)
    (text : Text) : has needle (lead ++ text) = has needle text := by
  induction lead with
  | nil => rfl
  | cons c lead ih =>
    rw [List.cons_append, has_cons (other c List.mem_cons_self),
      ih fun d inside => other d (List.mem_cons_of_mem c inside)]

theorem has_append_of_last {tail : Text} (other : ∀ c ∈ tail, needle.getLast? ≠ some c)
    (text : Text) : has needle (text ++ tail) = has needle text := by
  induction tail generalizing text with
  | nil => rw [List.append_nil]
  | cons c tail ih =>
    rw [List.append_cons, ih fun d inside => other d (List.mem_cons_of_mem c inside),
      has_concat (other c List.mem_cons_self)]

/-! ## Behind a field without the second character of an anchor -/

theorem cut?_of_second {a b : Char} (different : a ≠ b) (absent : b ∉ front)
    (needle rest : Text) :
    cut? (a :: b :: needle) (front ++ (a :: b :: needle ++ rest)) = some (front, rest) := by
  induction front with
  | nil =>
    rw [List.nil_append, List.cons_append, cut?, ← List.cons_append, stripStart?_append]
  | cons d front ih =>
    have absent' : b ∉ front := fun inside => absent (List.mem_cons_of_mem d inside)
    have elsewhere : stripStart? (a :: b :: needle)
        (d :: (front ++ (a :: b :: needle ++ rest))) = none := by
      cases front with
      | nil => simp [stripStart?, Ne.symm different]
      | cons e front =>
        have second : b ≠ e := fun same => absent' (same ▸ List.mem_cons_self)
        simp [stripStart?, second]
    rw [List.cons_append, cut?, elsewhere, ih absent']
    rfl

theorem between?_of_cut? {opening closing inside behind rest : Text}
    (opened : cut? opening text = some (front, rest))
    (closed : cut? closing rest = some (inside, behind)) :
    between? opening closing text = some inside := by
  rw [between?, opened]
  show (cut? closing rest >>= fun found => pure found.1) = _
  rw [closed]
  rfl

/-! ## Cutting at every occurrence -/

theorem splitFrom_drop (separator : Text) (skip : Nat) (text : Text) :
    splitFrom separator skip text = splitFrom separator 0 (text.drop skip) := by
  induction text generalizing skip with
  | nil => cases skip <;> rfl
  | cons c text ih =>
    cases skip with
    | zero => rfl
    | succ skip => exact ih skip

/-- The first piece ends where the separator first occurs. -/
theorem split_of_cut? {separator front rest : Text} (named : separator ≠ [])
    (found : cut? separator text = some (front, rest)) :
    split separator text = front :: split separator rest := by
  have nonempty : separator.isEmpty = false := by simpa using named
  rw [split, split, nonempty, if_neg (by simp), if_neg (by simp)]
  induction text generalizing front with
  | nil =>
    obtain ⟨behind, start, -⟩ := Option.map_eq_some_iff.1 found
    have short := stripStart?_eq_some_iff.1 start
    exact absurd (List.append_eq_nil_iff.1 short.symm).1 named
  | cons c text ih =>
    rw [cut?] at found
    cases start : stripStart? separator (c :: text) with
    | some behind =>
      rw [start] at found
      cases found
      have whole := stripStart?_eq_some_iff.1 start
      have left : text.drop (separator.length - 1) = rest := by
        obtain ⟨k, others, rfl⟩ := List.exists_cons_of_ne_nil named
        rw [List.cons_append, List.cons_eq_cons] at whole
        rw [whole.2, List.length_cons, Nat.add_sub_cancel, List.drop_left]
      rw [splitFrom, hasStart, start, if_pos Option.isSome_some, splitFrom_drop, left]
    | none =>
      rw [start] at found
      obtain ⟨⟨front', rest'⟩, found', same⟩ := Option.map_eq_some_iff.1 found
      cases same
      rw [splitFrom, hasStart, start, if_neg (by simp), ih found']
      rfl

theorem split_of_none {separator : Text} (named : separator ≠ [])
    (absent : cut? separator text = none) : split separator text = [text] := by
  have nonempty : separator.isEmpty = false := by simpa using named
  rw [split, nonempty, if_neg (by simp)]
  induction text with
  | nil => rfl
  | cons c text ih =>
    rw [cut?] at absent
    cases start : stripStart? separator (c :: text) with
    | some behind => simp [start] at absent
    | none =>
      rw [start, Option.map_eq_none_iff] at absent
      rw [splitFrom, hasStart, start, if_neg (by simp), ih absent]
      rfl

end HandHistory.Text
