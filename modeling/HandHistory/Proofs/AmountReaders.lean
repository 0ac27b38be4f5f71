import Mathlib.Algebra.Order.Field.Rat
import Mathlib.Tactic.FieldSimp
import Mathlib.Tactic.Linarith
import HandHistory.Proofs.Layout
import HandHistory.Proofs.WrittenHeaders

/-!
# Readers of amounts

An amount is a decimal number with something around it that is no part of it. Two readers look
for it in different places: the reader of a token begins at the first digit, and the reader of
a text at its head begins there, whatever stands there. From where they begin, both take the
same number (`Decimal.leading?`), and what that number is, is said in this module without either
of them: `Written.Number` is what is printed, and `value` what it stands for.

They part where an amount begins with its point or its comma. The head of a text may be such an
amount (`Amount.opensWithNumber`); a token loses the point with everything else in front of its
first digit. How far apart the two amounts are is told of the numbers themselves
(`Decimal.toRat`), before they are rounded.
-/

namespace HandHistory

namespace Text

/-! ## What words hold -/

theorem mem_of_mem_fieldsBy {isSeparator : Char → Bool} {text piece : Text} {c : Char}
    (cut : piece ∈ fieldsBy isSeparator text) (inside : c ∈ piece) : c ∈ text := by
  induction text generalizing piece with
  | nil =>
    rw [List.mem_singleton.1 cut] at inside
    cases inside
  | cons d text ih =>
    rw [fieldsBy] at cut
    split at cut
    · rcases List.mem_cons.1 cut with rfl | later
      · cases inside
      · exact List.mem_cons_of_mem d (ih later inside)
    · obtain ⟨first, others, hfirst⟩ := List.exists_cons_of_ne_nil
        (fieldsBy_ne_nil isSeparator text)
      rw [hfirst] at cut ih
      rcases List.mem_cons.1 cut with rfl | later
      · rcases List.mem_cons.1 inside with rfl | further
        · exact List.mem_cons_self
        · exact List.mem_cons_of_mem d (ih List.mem_cons_self further)
      · exact List.mem_cons_of_mem d (ih (List.mem_cons_of_mem first later) inside)

/-- A character that separates nothing stands in one of the pieces. -/
theorem exists_mem_fieldsBy {isSeparator : Char → Bool} {text : Text} {c : Char}
    (inside : c ∈ text) (solid : isSeparator c = false) :
    ∃ piece ∈ fieldsBy isSeparator text, c ∈ piece := by
  induction text with
  | nil => cases inside
  | cons d text ih =>
    obtain ⟨first, others, hfirst⟩ := List.exists_cons_of_ne_nil
      (fieldsBy_ne_nil isSeparator text)
    rw [fieldsBy]
    split
    · next separates =>
      rcases List.mem_cons.1 inside with rfl | later
      · rw [separates] at solid
        cases solid
      · obtain ⟨piece, cut, there⟩ := ih later
        exact ⟨piece, List.mem_cons_of_mem _ cut, there⟩
    · rw [hfirst] at ih ⊢
      rcases List.mem_cons.1 inside with rfl | later
      · exact ⟨c :: first, List.mem_cons_self, List.mem_cons_self⟩
      · obtain ⟨piece, cut, there⟩ := ih later
        rcases List.mem_cons.1 cut with rfl | behind
        · exact ⟨d :: piece, List.mem_cons_self, List.mem_cons_of_mem d there⟩
        · exact ⟨piece, List.mem_cons_of_mem _ behind, there⟩

theorem mem_of_mem_words {text word : Text} {c : Char} (cut : word ∈ words text)
    (inside : c ∈ word) : c ∈ text :=
  mem_of_mem_fieldsBy (List.mem_filter.1 cut).1 inside

/-- What is not blank stands in one of the words. -/
theorem exists_mem_words {text : Text} {c : Char} (inside : c ∈ text)
    (solid : isBlank c = false) : ∃ word ∈ words text, c ∈ word := by
  obtain ⟨word, cut, there⟩ := exists_mem_fieldsBy inside solid
  refine ⟨word, List.mem_filter.2 ⟨cut, ?_⟩, there⟩
  cases word with
  | nil => cases there
  | cons d word => rfl

theorem trimLine_eq_self_of_solid {text : Text} (solid : ∀ c ∈ text, isLineBlank c = false) :
    trimLine text = text := by
  by_cases none : text = []
  · rw [none]
    rfl
  · obtain ⟨c, rest, same⟩ := List.exists_cons_of_ne_nil none
    have last := List.dropLast_concat_getLast none
    exact trimLine_eq_self ⟨c, rest, same, solid c (same ▸ List.mem_cons_self)⟩
      ⟨_, _, last.symm, solid _ (List.getLast_mem none)⟩

theorem isLineBlank_of_solid {text : Text} (solid : ∀ c ∈ text, isBlank c = false) :
    ∀ c ∈ text, isLineBlank c = false := by
  intro c inside
  cases blank : isLineBlank c with
  | false => rfl
  | true => exact (isBlank_of_isLineBlank blank).symm.trans (solid c inside)

end Text

/-! ## The number of a decimal -/

theorem Numeral.ofDigits_append (front back : Text) :
    ofDigits (front ++ back) = 10 ^ back.length * ofDigits front + ofDigits back := by
  have joined : ofDigits (front ++ back) = Nat.ofDigitChars 10 back (ofDigits front) :=
    List.foldl_append
  exact joined.trans Nat.ofDigitChars_eq_ofDigitChars_zero

namespace Decimal

/-- The number itself, before it is rounded. -/
def toRat (d : Decimal) : ℚ := d.digits / 10 ^ d.places

theorem toRat_ofDigits (whole fraction : Text) :
    (ofDigits whole fraction).toRat =
      Numeral.ofDigits whole + Numeral.ofDigits fraction / 10 ^ fraction.length := by
  rw [toRat, ofDigits, Numeral.ofDigits_append]
  push_cast
  field_simp

/-- Digits that move from behind the point in front of it leave the number as it was just if
it is zero. -/
theorem toRat_shift_iff {whole : Text} (named : whole ≠ []) (fraction : Text) :
    (ofDigits [] whole).toRat = (ofDigits whole fraction).toRat ↔
      (ofDigits whole fraction).toRat = 0 := by
  have power : (1 : ℚ) < 10 ^ whole.length :=
    one_lt_pow₀ (by norm_num) (List.length_pos_iff.2 named).ne'
  have digits : (0 : ℚ) ≤ Numeral.ofDigits whole := Nat.cast_nonneg _
  have behind : (0 : ℚ) ≤ Numeral.ofDigits fraction / 10 ^ fraction.length := by positivity
  have less : (Numeral.ofDigits whole : ℚ) / 10 ^ whole.length ≤ Numeral.ofDigits whole :=
    div_le_self digits power.le
  have empty : (Numeral.ofDigits [] : ℚ) = 0 := rfl
  rw [toRat_ofDigits, toRat_ofDigits, empty, zero_add]
  constructor
  · intro same
    have noFraction : (Numeral.ofDigits fraction : ℚ) / 10 ^ fraction.length = 0 := by linarith
    rw [noFraction, add_zero] at same ⊢
    rw [div_eq_iff (by positivity)] at same
    nlinarith
  · intro zero
    have noDigits : (Numeral.ofDigits whole : ℚ) = 0 := by linarith
    rw [zero, noDigits, zero_div]

end Decimal

namespace Amount

open Text

/-! ## What begins with a number -/

/-- Whether the first character is a digit. -/
def opensWithDigit (text : Text) : Bool := text.head?.any Numeral.isDigit

/-- Whether a text begins with a digit, or with a point or a comma and a digit behind it. -/
def opensWithNumber (text : Text) : Bool :=
  opensWithDigit text ||
    (text.head?.any fun c => c == '.' || c == ',') && opensWithDigit text.tail

theorem isDigit_replace (c : Char) :
    Numeral.isDigit (if c = ',' then '.' else c) = Numeral.isDigit c := by
  split
  · next comma => rw [comma]; decide
  · rfl

theorem takeWhile_replace (text : Text) :
    (replace ',' '.' text).takeWhile Numeral.isDigit = text.takeWhile Numeral.isDigit := by
  induction text with
  | nil => rfl
  | cons c text ih =>
    by_cases digit : Numeral.isDigit c = true
    · have noComma : c ≠ ',' := by rintro rfl; cases digit
      rw [List.takeWhile_cons_of_pos digit, ← ih]
      simp [replace, noComma, digit]
    · rw [List.takeWhile_cons_of_neg digit, replace, List.map_cons,
        List.takeWhile_cons_of_neg (by rwa [isDigit_replace])]

theorem dropWhile_replace (text : Text) :
    (replace ',' '.' text).dropWhile Numeral.isDigit =
      replace ',' '.' (text.dropWhile Numeral.isDigit) := by
  induction text with
  | nil => rfl
  | cons c text ih =>
    rw [replace, List.map_cons, List.dropWhile_cons, List.dropWhile_cons, isDigit_replace]
    split
    · exact ih
    · rfl

/-- The digits behind the digits that begin a text, if a point or a comma parts them. -/
def fraction (text : Text) : Text :=
  Decimal.fractionOf (replace ',' '.' (text.dropWhile Numeral.isDigit))

theorem fraction_cons {c : Char} (noDigit : Numeral.isDigit c = false) (rest : Text) :
    fraction (c :: rest) =
      if c = '.' ∨ c = ',' then rest.takeWhile Numeral.isDigit else [] := by
  rw [fraction, List.dropWhile_cons_of_neg (by simp [noDigit])]
  split
  · next point =>
    rcases point with rfl | rfl <;> exact takeWhile_replace rest
  · next other =>
    rw [not_or] at other
    rw [replace, List.map_cons, if_neg other.2]
    unfold Decimal.fractionOf
    split
    · next same => exact absurd (List.cons.inj same).1 other.1
    · rfl

/-- A number at the head of a text has its digits in front of a separator and behind it. -/
theorem leading?_replace (text : Text) :
    Decimal.leading? (replace ',' '.' text) =
      if text.takeWhile Numeral.isDigit = [] ∧ fraction text = [] then none
      else some (.ofDigits (text.takeWhile Numeral.isDigit) (fraction text)) := by
  rw [Decimal.leading?, takeWhile_replace, dropWhile_replace, fraction]
  simp

theorem takeWhile_eq_nil {text : Text} :
    text.takeWhile Numeral.isDigit = [] ↔ opensWithDigit text = false := by
  cases text with
  | nil => simp [opensWithDigit]
  | cons c text => by_cases digit : Numeral.isDigit c = true <;> simp [opensWithDigit, digit]

theorem takeWhile_ne_nil {text : Text} (opens : opensWithDigit text = true) :
    text.takeWhile Numeral.isDigit ≠ [] := by
  rw [Ne, takeWhile_eq_nil, opens]
  exact Bool.noConfusion

theorem leading?_digits {text : Text} (opens : opensWithDigit text = true) :
    Decimal.leading? (replace ',' '.' text) =
      some (.ofDigits (text.takeWhile Numeral.isDigit) (fraction text)) := by
  rw [leading?_replace, if_neg fun none => takeWhile_ne_nil opens none.1]

/-- A number that begins with its point or comma has no digits in front of it. -/
theorem leading?_separated {separator : Char} (point : separator = '.' ∨ separator = ',')
    {rest : Text} (opens : opensWithDigit rest = true) :
    Decimal.leading? (replace ',' '.' (separator :: rest)) =
      some (.ofDigits [] (rest.takeWhile Numeral.isDigit)) := by
  have noDigit : Numeral.isDigit separator = false := by rcases point with rfl | rfl <;> decide
  rw [leading?_replace, fraction_cons noDigit, if_pos point,
    if_neg fun none => takeWhile_ne_nil opens none.2,
    List.takeWhile_cons_of_neg (by simp [noDigit])]

theorem opensWithNumber_iff {text : Text} :
    opensWithNumber text = true ↔ opensWithDigit text = true ∨
      ∃ separator rest, (separator = '.' ∨ separator = ',') ∧ text = separator :: rest ∧
        opensWithDigit rest = true := by
  cases text with
  | nil => simp [opensWithNumber, opensWithDigit]
  | cons c rest =>
    have cut : (∃ separator tail, (separator = '.' ∨ separator = ',') ∧
        c :: rest = separator :: tail ∧ opensWithDigit tail = true) ↔
          (c = '.' ∨ c = ',') ∧ opensWithDigit rest = true :=
      ⟨fun ⟨_, _, point, same, digit⟩ => by cases same; exact ⟨point, digit⟩,
        fun ⟨point, digit⟩ => ⟨c, rest, point, rfl, digit⟩⟩
    rw [cut]
    simp [opensWithNumber]

/-- A number is found just where one begins. -/
theorem leading?_eq_none_iff (text : Text) :
    Decimal.leading? (replace ',' '.' text) = none ↔ opensWithNumber text = false := by
  have both : Decimal.leading? (replace ',' '.' text) = none ↔
      opensWithDigit text = false ∧ fraction text = [] := by
    rw [leading?_replace, ← takeWhile_eq_nil]
    simp
  rw [both]
  cases text with
  | nil => exact iff_of_true ⟨rfl, rfl⟩ rfl
  | cons c rest =>
    cases digit : Numeral.isDigit c with
    | true => simp [opensWithNumber, opensWithDigit, digit]
    | false =>
      have first : opensWithDigit (c :: rest) = false := digit
      rw [fraction_cons digit, opensWithNumber, first]
      by_cases point : c = '.' ∨ c = ','
      · simp [point, ← takeWhile_eq_nil]
      · simp [not_or.1 point]

end Amount

namespace Written

open Text

/-! ## Printed numbers -/

/-- A decimal number as it is printed: digits, and perhaps more of them behind a point or
a comma. -/
structure Number where
  whole : Digits
  comma : Bool
  fraction? : Option Digits

namespace Number

variable (number : Number)

/-- The digits behind the point. -/
def fraction : Text := number.fraction?.elim [] Digits.text

def text : Text :=
  number.whole.text ++
    number.fraction?.elim [] fun digits => (if number.comma then ',' else '.') :: digits.text

/-- The double nearest to the number. -/
def value : Float := (Decimal.ofDigits number.whole.text number.fraction).toFloat

theorem fraction_digits : ∀ c ∈ number.fraction, Numeral.isDigit c = true := by
  rw [fraction]
  cases number.fraction? with
  | none => simp
  | some digits => exact digits.digits

theorem replace_text : Text.replace ',' '.' number.text = number.whole.text ++
    if number.fraction = [] then [] else '.' :: number.fraction := by
  rw [text, Chips.replace_append, Chips.replace_digits number.whole.digits, fraction]
  cases number.fraction? with
  | none => rfl
  | some digits =>
    have kept := Chips.replace_digits digits.digits
    rw [Option.elim_some, Option.elim_some, if_neg digits.named]
    cases number.comma <;> simp [Text.replace] <;> exact kept

theorem isBlank_eq_false : ∀ c ∈ number.text, isBlank c = false := by
  intro c inside
  rcases List.mem_append.1 inside with whole | fraction
  · exact isBlank_of_digit (number.whole.digits c whole)
  · cases split : number.fraction? with
    | none =>
      rw [split] at fraction
      cases fraction
    | some digits =>
      rw [split] at fraction
      rcases List.mem_cons.1 fraction with rfl | further
      · split <;> decide
      · exact isBlank_of_digit (digits.digits c further)

end Number

/-- Whether a number that ends in front of the text is over there: no digit, point or comma
follows. -/
def Stops (behind : Text) : Prop :=
  ∀ c, behind.head? = some c → Numeral.isDigit c = false ∧ c ≠ '.' ∧ c ≠ ','

/-- A number is taken as a whole from a text that begins with it. -/
theorem Number.leading?_text (number : Number) {behind : Text} (stops : Stops behind) :
    Decimal.leading? (Text.replace ',' '.' (number.text ++ behind)) =
      some (Decimal.ofDigits number.whole.text number.fraction) := by
  have noDigit : (Text.replace ',' '.' behind).takeWhile Numeral.isDigit = [] := by
    cases behind with
    | nil => rfl
    | cons c rest =>
      obtain ⟨other, -, noComma⟩ := stops c rfl
      simp [Text.replace, noComma, other]
  have noPoint : (Text.replace ',' '.' behind).head? ≠ some '.' := by
    cases behind with
    | nil => simp [Text.replace]
    | cons c rest =>
      obtain ⟨-, other, noComma⟩ := stops c rfl
      simp [Text.replace, noComma, other]
  rw [Chips.replace_append, number.replace_text, List.append_assoc]
  exact Chips.leading?_number number.whole.named number.whole.digits number.fraction_digits
    noDigit noPoint

/-- A number in a token, with glyphs on either side. -/
structure NoisyNumber where
  before : Text
  number : Number
  behind : Text
  noDigit : ∀ c ∈ before, Numeral.isDigit c = false
  stops : Stops behind
  solid : ∀ c ∈ before ++ behind, isBlank c = false

namespace NoisyNumber

variable (noisy : NoisyNumber)

def text : Text := noisy.before ++ (noisy.number.text ++ noisy.behind)

theorem isBlank_eq_false : ∀ c ∈ noisy.text, isBlank c = false := by
  intro c inside
  rcases List.mem_append.1 inside with before | inside
  · exact noisy.solid c (List.mem_append_left _ before)
  · rcases List.mem_append.1 inside with number | behind
    · exact noisy.number.isBlank_eq_false c number
    · exact noisy.solid c (List.mem_append_right _ behind)

end NoisyNumber

end Written

namespace Amount

open Text Written

/-! ## Tokens -/

theorem dropWhile_skip {before text : Text} (noDigit : ∀ c ∈ before, Numeral.isDigit c = false)
    (opens : opensWithDigit text = true) :
    ((before ++ text).dropWhile fun c => !Numeral.isDigit c) = text := by
  rw [List.dropWhile_append_of_pos fun c inside => by simp [noDigit c inside]]
  cases text with
  | nil => rfl
  | cons c rest =>
    have digit : Numeral.isDigit c = true := opens
    exact List.dropWhile_cons_of_neg (by simp [digit])

/-- A token is read from its first digit on. -/
theorem ofToken?_skip {before : Text} (noDigit : ∀ c ∈ before, Numeral.isDigit c = false)
    {text : Text} (opens : opensWithDigit text = true) :
    ofToken? (before ++ text) =
      some (Decimal.ofDigits (text.takeWhile Numeral.isDigit) (fraction text)).toFloat := by
  rw [ofToken?, dropWhile_skip noDigit opens, leading?_digits opens]
  rfl

/-- A token without digits has no amount, and every other token has one. -/
theorem ofToken?_eq_none_iff (token : Text) :
    ofToken? token = none ↔ ∀ c ∈ token, Numeral.isDigit c = false := by
  rw [ofToken?, Option.map_eq_none_iff]
  constructor
  · intro none
    cases number : token.dropWhile fun c => !Numeral.isDigit c with
    | nil =>
      intro c inside
      simpa using List.dropWhile_eq_nil_iff.1 number c inside
    | cons c rest =>
      have digit := List.head?_dropWhile_not (fun c => !Numeral.isDigit c) token
      rw [number] at digit none
      have first : Numeral.isDigit c = true := by simpa using digit
      have opens : opensWithDigit (c :: rest) = true := first
      rw [leading?_digits opens] at none
      cases none
  · intro noDigit
    have nothing : (token.dropWhile fun c => !Numeral.isDigit c) = [] :=
      List.dropWhile_eq_nil_iff.2 fun c inside => by simp [noDigit c inside]
    rw [nothing]
    rfl

theorem ofToken?_noisy (noisy : NoisyNumber) :
    ofToken? noisy.text = some noisy.number.value := by
  have opens : opensWithDigit (noisy.number.text ++ noisy.behind) = true := by
    obtain ⟨c, rest, same⟩ := List.exists_cons_of_ne_nil noisy.number.whole.named
    rw [Number.text, same]
    exact noisy.number.whole.digits c (same ▸ List.mem_cons_self)
  rw [ofToken?, NoisyNumber.text, dropWhile_skip noisy.noDigit opens,
    noisy.number.leading?_text noisy.stops]
  rfl

/-! ## Lines -/

/-- No word of a text is an amount just if the text has no digit. -/
theorem findSome?_words_eq_none_iff (text : Text) :
    (words text).reverse.findSome? ofToken? = none ↔
      ∀ c ∈ text, Numeral.isDigit c = false := by
  rw [List.findSome?_eq_none_iff]
  constructor
  · intro none c inside
    cases digit : Numeral.isDigit c with
    | false => rfl
    | true =>
      obtain ⟨word, cut, there⟩ := exists_mem_words inside (isBlank_of_digit digit)
      have noAmount := none word (List.mem_reverse.2 cut)
      exact digit.symm.trans ((ofToken?_eq_none_iff word).1 noAmount c there)
  · intro noDigit word cut
    exact (ofToken?_eq_none_iff word).2 fun c there =>
      noDigit c (mem_of_mem_words (List.mem_reverse.1 cut) there)

/-- Behind the last token with a digit, nothing is an amount. -/
theorem last_noisy (noisy : NoisyNumber) (earlier : Text) {later : Text}
    (noDigit : ∀ c ∈ later, Numeral.isDigit c = false) :
    last (earlier ++ ' ' :: (noisy.text ++ ' ' :: later)) = pure noisy.number.value := by
  have named : noisy.text ≠ [] := by
    simp [NoisyNumber.text, Number.text, noisy.number.whole.named]
  have none := (findSome?_words_eq_none_iff later).2 noDigit
  rw [last, words_append, words_append, words_eq_singleton named noisy.isBlank_eq_false,
    List.reverse_append, List.reverse_append, List.append_assoc, List.findSome?_append, none,
    Option.none_or, List.reverse_singleton, List.singleton_append, List.findSome?_cons,
    ofToken?_noisy]

/-- A line is noted as one without an amount just if it has no digit. -/
theorem events_last (line : Text) :
    (last line).events =
      if line.any Numeral.isDigit then [] else [.amountDefaulted line] := by
  cases digits : line.any Numeral.isDigit with
  | false =>
    have none := (findSome?_words_eq_none_iff line).2 fun c inside =>
      Bool.eq_false_iff.2 (List.any_eq_false.1 digits c inside)
    rw [last, none]
    rfl
  | true =>
    obtain ⟨c, inside, digit⟩ := List.any_eq_true.1 digits
    have some : (words line).reverse.findSome? ofToken? ≠ none := by
      intro none
      rw [(findSome?_words_eq_none_iff line).1 none c inside] at digit
      cases digit
    obtain ⟨amount, found⟩ := Option.ne_none_iff_exists'.1 some
    rw [last, found]
    rfl

/-! ## Texts that begin with an amount -/

theorem atHead_of_leading? {text : Text} {d : Decimal} (trimmed : trimLine text = text)
    (number : Decimal.leading? (replace ',' '.' text) = some d) : atHead text = pure d.toFloat := by
  rw [atHead, trimmed, number]

theorem atHead_number (number : Number) {behind left right : Text} (stops : Stops behind)
    (solid : ∀ c ∈ behind, isBlank c = false) (hleft : ∀ c ∈ left, isLineBlank c = true)
    (hright : ∀ c ∈ right, isLineBlank c = true) :
    atHead (left ++ ((number.text ++ behind) ++ right)) = pure number.value := by
  have whole : ∀ c ∈ number.text ++ behind, isBlank c = false := by
    intro c inside
    rcases List.mem_append.1 inside with here | there
    · exact number.isBlank_eq_false c here
    · exact solid c there
  have trimmed : trimLine (left ++ ((number.text ++ behind) ++ right)) = number.text ++ behind :=
    (trimLine_pad hleft hright _).trans (trimLine_eq_self_of_solid (isLineBlank_of_solid whole))
  rw [atHead, trimmed, number.leading?_text stops]
  rfl

/-! ## Through noise -/

/-- A number is read through the glyphs around it, wherever it stands, and nothing but the want
of a digit makes an amount up. -/
theorem read_through_noise (noisy : NoisyNumber) :
    ofToken? noisy.text = some noisy.number.value ∧
    (∀ earlier later : Text, (∀ c ∈ later, Numeral.isDigit c = false) →
      last (earlier ++ ' ' :: (noisy.text ++ ' ' :: later)) = pure noisy.number.value) ∧
    (∀ left right : Text, (∀ c ∈ left, isLineBlank c = true) →
      (∀ c ∈ right, isLineBlank c = true) →
      atHead (left ++ ((noisy.number.text ++ noisy.behind) ++ right)) =
        pure noisy.number.value) ∧
    (∀ token : Text, ofToken? token = none ↔ ∀ c ∈ token, Numeral.isDigit c = false) ∧
    ∀ line : Text, (last line).events =
        (if line.any Numeral.isDigit then [] else [.amountDefaulted line]) ∧
      Event.lenientCount (last line).events = if line.any Numeral.isDigit then 0 else 1 := by
  refine ⟨ofToken?_noisy noisy, fun earlier later noDigit => last_noisy noisy earlier noDigit,
    fun left right hleft hright => ?_, ofToken?_eq_none_iff, fun line => ⟨events_last line, ?_⟩⟩
  · exact atHead_number noisy.number noisy.stops
      (fun c inside => noisy.solid c (List.mem_append_right _ inside)) hleft hright
  · rw [events_last]
    split <;> rfl

/-- An amount with a comma, between a bracket and a sign of its currency. -/
def sixCents : NoisyNumber where
  before := "(".toList
  number :=
    { whole := { text := "0".toList, named := by decide, digits := List.all_eq_true.1 (by decide) }
      comma := true
      fraction? := some
        { text := "06".toList, named := by decide, digits := List.all_eq_true.1 (by decide) } }
  behind := "€)".toList
  noDigit := by simp; decide
  stops := by
    rintro c ⟨⟩
    decide
  solid := List.forall_mem_cons.2 ⟨by decide, by simp; decide⟩

theorem read_through_noise_six_cents :
    last "Hero raises 2€ to (0,06€) and is all-in".toList = pure 0.06 ∧
      atHead " 0,06€)\t".toList = pure 0.06 := by
  obtain ⟨-, inLine, padded, -⟩ := read_through_noise sixCents
  have quiet : ∀ c ∈ "and is all-in".toList, Numeral.isDigit c = false := fun c inside =>
    Bool.eq_false_iff.2 (List.any_eq_false.1 (by decide) c inside)
  exact ⟨inLine "Hero raises 2€ to".toList _ quiet, padded [' '] ['\t']
    (List.forall_mem_singleton.2 rfl) (List.forall_mem_singleton.2 rfl)⟩

/-! ## Where the readers differ -/

/-- Where both readers find a number, it is the same if it begins with a digit. The reader of
a token drops a point or a comma in front of the first digit, and then the two differ, unless
there is nothing but zeros. -/
theorem atHead_ofToken? {text : Text} (named : text ≠ [])
    (solid : ∀ c ∈ text, isBlank c = false) (found : (atHead text).events = []) :
    ∃ head token : Decimal,
      atHead text = pure head.toFloat ∧ ofToken? text = some token.toFloat ∧
      (opensWithDigit text = true → head = token) ∧
      (opensWithDigit text = false → ∃ separator rest,
        (separator = '.' ∨ separator = ',') ∧ text = separator :: rest ∧
        head = .ofDigits [] (rest.takeWhile Numeral.isDigit) ∧
        token = .ofDigits (rest.takeWhile Numeral.isDigit) (fraction rest)) ∧
      (head.toRat = token.toRat ↔ opensWithDigit text = true ∨ token.toRat = 0) := by
  have trimmed := trimLine_eq_self_of_solid (isLineBlank_of_solid solid)
  have read : opensWithNumber text = true := by
    by_contra closed
    have none := (leading?_eq_none_iff text).2 (Bool.eq_false_iff.2 closed)
    rw [atHead, trimmed, none] at found
    simp [replace, named, defaulted] at found
  rcases opensWithNumber_iff.1 read with digit | ⟨separator, rest, point, rfl, digit⟩
  · refine ⟨_, _, atHead_of_leading? trimmed (leading?_digits digit),
      ofToken?_skip (List.forall_mem_nil _) digit, fun _ => rfl, ?_, iff_of_true rfl (.inl digit)⟩
    intro other
    rw [digit] at other
    cases other
  · have noDigit : Numeral.isDigit separator = false := by rcases point with rfl | rfl <;> decide
    have other : opensWithDigit (separator :: rest) = false := noDigit
    have whole : rest.takeWhile Numeral.isDigit ≠ [] := takeWhile_ne_nil digit
    refine ⟨_, _, atHead_of_leading? trimmed (leading?_separated point digit),
      ofToken?_skip (List.forall_mem_singleton.2 noDigit) digit, ?_,
      fun _ => ⟨separator, rest, point, rfl, rfl, rfl⟩, ?_⟩
    · intro opens
      rw [other] at opens
      cases opens
    · rw [Decimal.toRat_shift_iff whole, other]
      simp

/-- Half a unit without its zero is five as a token. -/
theorem atHead_ofToken?_half : ∃ half five : Float,
    atHead ".5".toList = pure half ∧ ofToken? ".5".toList = some five ∧ half < five := by
  have named : ".5".toList ≠ [] := by decide
  have solid : ∀ c ∈ ".5".toList, isBlank c = false := by simp; decide
  obtain ⟨head, token, atStart, inToken, -, separated, -⟩ := atHead_ofToken? named solid rfl
  obtain ⟨separator, rest, -, same, rfl, rfl⟩ := separated rfl
  cases same
  exact ⟨_, _, atStart, inToken, by decide⟩

end Amount

end HandHistory
