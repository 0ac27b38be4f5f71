import HandHistory.Proofs.Anchors

/-!
# Pieces of a text

`Text.split` cuts a text wherever a separator stands in it. `Divided` says what the pieces are
without cutting: each of them ends where the separator first stands in what is left of the
text, and the last one has no separator. A text has one such division, `split_eq_iff_divided`.

Where texts are put together with a separator between them, their pieces are those of the one
and then those of the other, as long as no separator begins in the first text and ends in the
second one. A separator whose first character is found nowhere else in it never overlaps with
itself, and then this is so for any texts: `split_append`.
-/

namespace HandHistory.Text

variable {separator front rest text : Text} {pieces : List Text} {c : Char}

/-- The division of a text into the pieces between separators. -/
inductive Divided (separator : Text) : (text : Text) → (pieces : List Text) → Prop
  | whole {text : Text} : has separator text = false → Divided separator text [text]
  | cut {front rest : Text} {pieces : List Text} : StandsFirst separator front rest →
      Divided separator rest pieces → Divided separator (front ++ separator ++ rest) (front :: pieces)

theorem divided_split (named : separator ≠ []) (text : Text) :
    Divided separator text (split separator text) := by
  -- the induction is on the length, because what is left behind a separator is shorter
  induction size : text.length using Nat.strongRecOn generalizing text with
  | ind count ih =>
    cases found : cut? separator text with
    | none =>
      rw [split_of_none named found]
      exact .whole (by rw [has, found]; rfl)
    | some pair =>
      obtain ⟨front, rest⟩ := pair
      obtain ⟨rfl, first⟩ := cut?_eq_some_iff.1 found
      have shorter : rest.length < count := by
        have some := List.length_pos_iff.2 named
        rw [← size, List.length_append, List.length_append]
        omega
      rw [split_of_cut? named found]
      exact .cut first (ih rest.length shorter rest rfl)

theorem Divided.split_eq (named : separator ≠ []) (divided : Divided separator text pieces) :
    split separator text = pieces := by
  induction divided with
  | whole absent => exact split_of_none named (by simpa [has] using absent)
  | cut first _ ih => rw [split_of_cut? named (cut?_eq_some_iff.2 ⟨rfl, first⟩), ih]

theorem split_eq_iff_divided (named : separator ≠ []) :
    split separator text = pieces ↔ Divided separator text pieces := by
  constructor
  · rintro rfl
    exact divided_split named text
  · exact Divided.split_eq named

/-- Pieces have no characters that are not in the text. -/
theorem Divided.mem_of_mem (divided : Divided separator text pieces) {piece : Text}
    (cut : piece ∈ pieces) (inside : c ∈ piece) : c ∈ text := by
  induction divided with
  | whole _ =>
    rw [List.mem_singleton.1 cut] at inside
    exact inside
  | cut _ _ ih =>
    rcases List.mem_cons.1 cut with rfl | later
    · exact List.mem_append_left _ (List.mem_append_left _ inside)
    · exact List.mem_append_right _ (ih later)

/-! ## Texts put together -/

/-- Whether a separator stands first is decided before its end. -/
theorem StandsFirst.of_rest {other : Text} (first : StandsFirst separator front rest) :
    StandsFirst separator front other := by
  intro earlier later occurs
  apply Nat.le_of_not_lt
  intro before
  have short : (earlier ++ separator).length ≤ (front ++ separator).length := by
    rw [List.length_append, List.length_append]
    omega
  obtain ⟨between, hbetween⟩ : earlier ++ separator <+: front ++ separator :=
    List.prefix_of_prefix_length_le ⟨later, occurs.symm⟩ (List.prefix_append _ other) short
  have there := first earlier (between ++ rest) (by rw [← hbetween, List.append_assoc])
  omega

/-- A separator that does not overlap with itself stands first behind a text without it. -/
theorem standsFirst_of_lone {more : Text} (lone : c ∉ more) (absent : has (c :: more) front = false)
    (rest : Text) : StandsFirst (c :: more) front rest := by
  suffices found : cut? (c :: more) (front ++ (c :: more) ++ rest) = some (front, rest) from
    (cut?_eq_some_iff.1 found).2
  rw [List.append_assoc]
  induction front with
  | nil => rw [List.nil_append, List.cons_append, cut?, ← List.cons_append, stripStart?_append]
  | cons d front ih =>
    rw [has, cut?] at absent
    cases start : stripStart? (c :: more) (d :: front) with
    | some behind => simp [start] at absent
    | none =>
      rw [start, Option.isSome_map] at absent
      have elsewhere : stripStart? (c :: more) (d :: (front ++ (c :: more ++ rest))) = none := by
        rw [stripStart?] at start ⊢
        split
        · next same =>
          rw [if_pos same] at start
          rw [List.cons_append, stripStart?_append_cons lone, start]
          rfl
        · rfl
      rw [List.cons_append, cut?, elsewhere, ih absent]
      rfl

theorem Divided.append {more : Text} (lone : c ∉ more) {others : List Text}
    (divided : Divided (c :: more) front pieces) (behind : Divided (c :: more) rest others) :
    Divided (c :: more) (front ++ (c :: more) ++ rest) (pieces ++ others) := by
  induction divided with
  | whole absent => exact .cut (standsFirst_of_lone lone absent rest) behind
  | cut first _ ih =>
    rw [List.append_assoc, List.append_assoc, ← List.append_assoc _ (c :: more) rest]
    exact .cut first.of_rest ih

theorem split_append {more : Text} (lone : c ∉ more) (front rest : Text) :
    split (c :: more) (front ++ (c :: more) ++ rest) =
      split (c :: more) front ++ split (c :: more) rest :=
  have named := List.cons_ne_nil c more
  ((divided_split named front).append lone (divided_split named rest)).split_eq named

/-! ## Characters in front -/

theorem split_ne_nil (named : separator ≠ []) (text : Text) : split separator text ≠ [] := by
  intro none
  have divided := divided_split named text
  rw [none] at divided
  cases divided

theorem split_cons {d : Char} (other : c ≠ d) (more text : Text) :
    split (d :: more) (c :: text) = consHead c (split (d :: more) text) := by
  simp [split, splitFrom, hasStart, stripStart?, Ne.symm other]

/-- What does not begin a separator belongs to the first piece of what follows. -/
theorem split_append_of_not_mem {more : Text} (absent : c ∉ front) {piece : Text}
    (cut : split (c :: more) text = piece :: pieces) :
    split (c :: more) (front ++ text) = (front ++ piece) :: pieces := by
  induction front with
  | nil => exact cut
  | cons d front ih =>
    have other : d ≠ c := fun same => absent (same ▸ List.mem_cons_self)
    rw [List.cons_append, split_cons other, ih fun inside => absent (List.mem_cons_of_mem d inside)]
    rfl

end HandHistory.Text
