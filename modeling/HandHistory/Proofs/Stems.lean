import HandHistory.FileStem
import HandHistory.Proofs.Words

/-!
# File stems read back

A stem is written as five parts with underscores between them. Of these only the name
may hold underscores, so the parts are found again from both ends, and whatever is left
between them is the name: the writing loses nothing (`WrittenStem.text_injective`).

A stem is read exactly if it is written so and meets three conditions on its whole text:
it is long enough, does not show both money words, and is no numbered copy.
-/

namespace HandHistory

open Text

/-- The parts of a stem, as they stand between underscores. -/
@[ext] structure WrittenStem where
  date : Text
  name : Text
  isRealMoney : Bool
  variant : Text
  limit : Text
  date_whole : '_' ∉ date
  variant_whole : '_' ∉ variant
  limit_whole : '_' ∉ limit

namespace WrittenStem

variable (written : WrittenStem)

/-- The word for the money type. -/
def moneyWord (isRealMoney : Bool) : Text := if isRealMoney then "real" else "play"

def text : Text :=
  written.date ++ '_' :: (written.name ++ '_' :: (moneyWord written.isRealMoney ++
    '_' :: (written.variant ++ '_' :: written.limit)))

/-- The description that the parts give. -/
def info : FileStem :=
  { isRealMoney := written.isRealMoney
    name := written.name
    variant := .ofLabel written.variant
    limit := .ofLabel written.limit }

/-- Both money words stand in the text as fields, or as what looks like fields. -/
def Ambiguous : Prop := "_real_".toList <:+: written.text ∧ "_play_".toList <:+: written.text

/-- A copy ends with a closing parenthesis, and its last part has an opening one. -/
def Numbered : Prop := ")".toList <:+ written.text ∧ '(' ∈ written.limit

/-- What the whole text of a stem has to be, if it is to be read. -/
structure Admitted : Prop where
  long : 30 ≤ utf8Size written.text
  unambiguous : ¬ written.Ambiguous
  original : ¬ written.Numbered

/-! ## The fields of a written stem -/

theorem moneyWord_whole (isRealMoney : Bool) : '_' ∉ moneyWord isRealMoney := by
  cases isRealMoney <;> decide

theorem moneyWord_injective {first second : Bool} (same : moneyWord first = moneyWord second) :
    first = second := by
  cases first <;> cases second <;> simp_all [moneyWord]

theorem money?_eq_some_iff {field : Text} {isRealMoney : Bool} :
    FileStem.money? field = some isRealMoney ↔ field = moneyWord isRealMoney := by
  rw [FileStem.money?]
  constructor
  · intro named
    split at named
    · next real =>
      cases named
      exact real
    · split at named
      · next play =>
        cases named
        exact play
      · cases named
  · rintro rfl
    cases isRealMoney <;> rfl

theorem fields_of_whole {field : Text} (whole : '_' ∉ field) : fields '_' field = [field] := by
  refine fieldsBy_eq_singleton fun c inside => beq_eq_false_iff_ne.2 ?_
  rintro rfl
  exact whole inside

theorem fields_underscore (front rest : Text) :
    fields '_' (front ++ '_' :: rest) = fields '_' front ++ fields '_' rest :=
  fieldsBy_append (by decide) front rest

/-- The fields are the date, those of the name, and the last three parts. -/
theorem fields_text : fields '_' written.text = written.date :: (fields '_' written.name ++
    [moneyWord written.isRealMoney, written.variant, written.limit]) := by
  simp only [text, fields_underscore, fields_of_whole written.date_whole,
    fields_of_whole (moneyWord_whole written.isRealMoney), fields_of_whole written.variant_whole,
    fields_of_whole written.limit_whole, List.singleton_append]

theorem text_injective {first second : WrittenStem} (same : first.text = second.text) :
    first = second := by
  have cut := congrArg (fields '_') same
  rw [fields_text, fields_text] at cut
  obtain ⟨date, others⟩ := List.cons.inj cut
  obtain ⟨names, last⟩ := List.append_inj' others rfl
  have name : first.name = second.name := by
    rw [← join_fields '_' first.name, names, join_fields]
  obtain ⟨money, last⟩ := List.cons.inj last
  obtain ⟨variant, last⟩ := List.cons.inj last
  obtain ⟨limit, -⟩ := List.cons.inj last
  exact WrittenStem.ext date name (moneyWord_injective money) variant limit

/-! ## Reading fields -/

/-- A list of fields describes a game just if it has a date, one or more fields of the name,
and the last three parts. -/
theorem ofFields?_eq_some_iff {pieces : List Text} {info : FileStem} :
    FileStem.ofFields? pieces = some info ↔ ∃ date names variant limit, names ≠ [] ∧
      pieces = date :: (names ++ [moneyWord info.isRealMoney, variant, limit]) ∧
      info.name = join "_" names ∧ info.variant = .ofLabel variant ∧
      info.limit = .ofLabel limit := by
  constructor
  · intro described
    rw [FileStem.ofFields?] at described
    split at described
    · next limit variant money front hpieces =>
      split at described
      · next date first others hfront =>
        cases named : FileStem.money? money with
        | none =>
          rw [named] at described
          cases described
        | some isRealMoney =>
          rw [named] at described
          cases described
          refine ⟨date, first :: others, variant, limit, List.cons_ne_nil _ _, ?_, rfl, rfl, rfl⟩
          rw [← List.cons_append, ← hfront, ← money?_eq_some_iff.1 named, ← List.reverse_inj,
            hpieces]
          simp
      · cases described
    · cases described
  · rintro ⟨date, names, variant, limit, named, rfl, name, hvariant, hlimit⟩
    obtain ⟨first, others, rfl⟩ := List.exists_cons_of_ne_nil named
    have turned : (date :: (first :: others ++
        [moneyWord info.isRealMoney, variant, limit])).reverse =
        limit :: variant :: moneyWord info.isRealMoney :: (date :: first :: others).reverse := by
      simp
    simp only [FileStem.ofFields?, turned, List.reverse_reverse, money?_eq_some_iff.2 rfl,
      ← name, ← hvariant, ← hlimit]
    rfl

theorem isCopy_text : FileStem.isCopy written.text = true ↔ written.Numbered := by
  have last : (fields '_' written.text).getLast? = some written.limit := by
    have shape : fields '_' written.text = (written.date :: (fields '_' written.name ++
        [moneyWord written.isRealMoney, written.variant])) ++ [written.limit] := by
      simp [fields_text]
    rw [shape, List.getLast?_concat]
  rw [FileStem.isCopy, last, Bool.and_eq_true, hasEnd_eq_true_iff, Option.elim_some,
    List.contains_iff_mem]
  rfl

/-- The conditions on the whole text of a stem. -/
theorem admitted_iff : written.Admitted ↔
    ¬ ((utf8Size written.text < FileStem.shortest || FileStem.isCopy written.text ||
      (has "_real_" written.text && has "_play_" written.text)) = true) := by
  have shortest : FileStem.shortest = 30 := by decide
  rw [Bool.or_eq_true, Bool.or_eq_true, Bool.and_eq_true, isCopy_text, decide_eq_true_eq,
    has_eq_true_iff, has_eq_true_iff, shortest]
  constructor
  · rintro ⟨long, unambiguous, original⟩ ((short | copy) | both)
    · omega
    · exact original copy
    · exact unambiguous both
  · intro none
    exact ⟨by omega, fun both => none (Or.inr both), fun copy => none (Or.inl (Or.inr copy))⟩

/-- A written stem is read just if its text is admitted. -/
theorem ofText?_text {info : FileStem} :
    FileStem.ofText? written.text = some info ↔ written.Admitted ∧ written.info = info := by
  rw [FileStem.ofText?, admitted_iff]
  split
  · next refused =>
    exact iff_of_false (by simp) fun admitted => admitted.1 refused
  · next admitted =>
    have described : FileStem.ofFields? (fields '_' written.text) = some written.info := by
      refine ofFields?_eq_some_iff.2 ⟨written.date, fields '_' written.name, written.variant,
        written.limit, fieldsBy_ne_nil _ _, written.fields_text, ?_, rfl, rfl⟩
      exact (join_fields '_' written.name).symm
    rw [described, Option.some_inj]
    exact ⟨fun same => ⟨admitted, same⟩, And.right⟩

/-- Whatever is read is written. -/
theorem exists_of_ofText? {stem : Text} {info : FileStem}
    (read : FileStem.ofText? stem = some info) : ∃ written : WrittenStem, written.text = stem := by
  rw [FileStem.ofText?] at read
  split at read
  · cases read
  · obtain ⟨date, names, variant, limit, named, cut, -⟩ := ofFields?_eq_some_iff.1 read
    have whole : ∀ piece ∈ date :: (names ++ [moneyWord info.isRealMoney, variant, limit]),
        '_' ∉ piece := fun piece inside => not_mem_of_mem_fields (cut ▸ inside)
    refine ⟨{ date, name := join "_" names, isRealMoney := info.isRealMoney, variant, limit,
              date_whole := whole date (by simp), variant_whole := whole variant (by simp),
              limit_whole := whole limit (by simp) }, ?_⟩
    have joined := join_fields '_' stem
    rw [cut, ← @List.singleton_append _ date, join_append (List.cons_ne_nil _ _) (by simp),
      join_append named (List.cons_ne_nil _ _)] at joined
    rw [← joined]
    simp [text, join]

/-! ## Stems of a client -/

theorem utf8Size_underscore (rest : Text) : utf8Size ('_' :: rest) = 1 + utf8Size rest := rfl

theorem utf8Size_pos {name : Text} (named : name ≠ []) : 0 < utf8Size name := by
  obtain ⟨c, rest, rfl⟩ := List.exists_cons_of_ne_nil named
  have := c.utf8Size_pos
  rw [utf8Size]
  omega

/-- A dated and named stem with known labels is as long as the shortest one, and no copy. -/
theorem admitted_of_labels {variant : Variant} {limit : Limit} (dated : utf8Size written.date = 8)
    (named : written.name ≠ []) (unambiguous : ¬ written.Ambiguous)
    (isVariant : variant ≠ .unnamed) (isLimit : limit ≠ .unnamed)
    (hvariant : written.variant = variant.text) (hlimit : written.limit = limit.text) :
    written.Admitted where
  long := by
    have name := utf8Size_pos named
    have money : utf8Size (moneyWord written.isRealMoney) = 4 := by
      cases written.isRealMoney <;> decide
    have variantSize : 5 ≤ utf8Size variant.text := by
      cases variant <;> first | contradiction | decide
    have limitSize : 8 ≤ utf8Size limit.text := by
      cases limit <;> first | contradiction | decide
    rw [text, hvariant, hlimit]
    simp only [utf8Size_append, utf8Size_underscore]
    omega
  unambiguous := unambiguous
  original := by
    rintro ⟨-, opened⟩
    rw [hlimit] at opened
    revert opened
    cases limit <;> decide

theorem ofLabel_variant (variant : Variant) : Variant.ofLabel variant.text = variant := by
  cases variant <;> decide

theorem ofLabel_limit (limit : Limit) : Limit.ofLabel limit.text = limit := by
  cases limit <;> decide

/-- A stem is read just if it is written and admitted, and then as its parts, of which it
has one row only. All stems that a client writes with known labels are admitted. -/
theorem ofText?_iff_written :
    (∀ stem info, FileStem.ofText? stem = some info ↔ ∃ written : WrittenStem,
      written.text = stem ∧ written.Admitted ∧ written.info = info) ∧
    (∀ first second : WrittenStem, first.text = second.text → first = second) ∧
    (∀ (written : WrittenStem) (variant : Variant) (limit : Limit),
      utf8Size written.date = 8 → written.name ≠ [] → ¬ written.Ambiguous →
      variant ≠ .unnamed → limit ≠ .unnamed →
      written.variant = variant.text → written.limit = limit.text →
      FileStem.ofText? written.text =
        some { isRealMoney := written.isRealMoney, name := written.name, variant, limit }) := by
  refine ⟨fun stem info => ⟨fun read => ?_, ?_⟩, fun first second => text_injective, ?_⟩
  · obtain ⟨written, rfl⟩ := exists_of_ofText? read
    exact ⟨written, rfl, written.ofText?_text.1 read⟩
  · rintro ⟨written, rfl, admitted, info⟩
    exact written.ofText?_text.2 ⟨admitted, info⟩
  · intro written variant limit dated named unambiguous isVariant isLimit hvariant hlimit
    refine written.ofText?_text.2 ⟨written.admitted_of_labels dated named unambiguous isVariant
      isLimit hvariant hlimit, ?_⟩
    rw [info, hvariant, hlimit, ofLabel_variant, ofLabel_limit]

/-- A name with an underscore is read back. -/
theorem ofText?_iff_written_underscore :
    FileStem.ofText? "20141116_Nice_04_play_omaha5_pot-limit" =
      some { isRealMoney := false, name := "Nice_04", variant := .omaha5, limit := .potLimit } := by
  let written : WrittenStem :=
    { date := "20141116", name := "Nice_04", isRealMoney := false, variant := "omaha5",
      limit := "pot-limit", date_whole := by decide, variant_whole := by decide,
      limit_whole := by decide }
  have spelled : written.text = "20141116_Nice_04_play_omaha5_pot-limit".toList := by decide
  have unambiguous : ¬ written.Ambiguous := by
    rintro ⟨real, -⟩
    rw [spelled, ← has_eq_true_iff] at real
    revert real
    decide
  rw [← spelled]
  exact ofText?_iff_written.2.2 written .omaha5 .potLimit (by decide) (by decide) unambiguous
    (by decide) (by decide) rfl rfl

end WrittenStem

end HandHistory
