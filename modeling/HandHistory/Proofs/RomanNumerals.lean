import HandHistory.Numeral.Roman
import Mathlib

/-!
# What Roman numerals are worth

The reading of `Numeral.Roman` takes letters in any order. Two things are said of it here.

A number has one written form, `Roman.numeral`: a letter for every thousand, and then at most
four letters for each of the three lower places. A letter never subtracts across two places,
because no letter of a lower place is larger than one of a higher place. So the sum of the
whole numeral is the sum of its places, `IsWorth.append`, for any number of thousands.

A text that has no written form still has a value if it is made of the seven letters. A letter
is larger than all smaller letters together, so a rising run of them never takes away as much
as its last letter gives. That is what `below_lt_total` carries along a text: from a letter on,
the sum stays above what the smaller letters come to. Hence no sum is negative, and none is
ever raised to zero.
-/

namespace HandHistory.Numeral.Roman

/-- The letters of Roman numerals, smallest first. -/
def letters : Text := "IVXLCDM"

/-- What the letters are worth, smallest first. -/
def letterValues : List Nat := [1, 5, 10, 50, 100, 500, 1000]

/-- The signed sum of a text, if it has no other characters than Roman letters. -/
def accumulated? (text : Text) : Option Int := (text.mapM letterValue?).map total

variable {text : Text} {values : List Nat}

/-! ## Letters -/

theorem mem_letterValues {c : Char} {value : Nat} (read : letterValue? c = some value) :
    value ∈ letterValues := by
  unfold letterValue? at read
  split at read <;> cases read <;> decide

theorem mem_letters_iff {c : Char} : c ∈ letters ↔ ∃ value, letterValue? c = some value := by
  constructor
  · intro inside
    have read : letters.all (fun c => (letterValue? c).isSome) = true := by decide
    exact Option.isSome_iff_exists.1 (List.all_eq_true.1 read c inside)
  · rintro ⟨value, read⟩
    unfold letterValue? at read
    split at read <;> cases read <;> decide

theorem mapM_letterValue?_cons (c : Char) (text : Text) :
    (c :: text).mapM letterValue? =
      (letterValue? c).bind fun value => (text.mapM letterValue?).map (value :: ·) := by
  rw [List.mapM_cons]
  cases letterValue? c with
  | none => rfl
  | some value => cases text.mapM letterValue? <;> rfl

theorem mapM_letterValue?_append {front rest : Text} {fronts rests : List Nat}
    (hfront : front.mapM letterValue? = some fronts)
    (hrest : rest.mapM letterValue? = some rests) :
    (front ++ rest).mapM letterValue? = some (fronts ++ rests) := by
  rw [List.mapM_append, hfront, hrest]
  rfl

theorem mapM_letterValue?_eq_none_iff :
    text.mapM letterValue? = none ↔ ∃ c ∈ text, c ∉ letters := by
  induction text with
  | nil => simp
  | cons c text ih =>
    rw [mapM_letterValue?_cons, List.exists_mem_cons_iff, ← ih, mem_letters_iff]
    cases letterValue? c with
    | none => simp
    | some value => simp

theorem mem_letterValues_of_mapM (read : text.mapM letterValue? = some values) :
    ∀ value ∈ values, value ∈ letterValues := by
  induction text generalizing values with
  | nil =>
    cases read
    simp
  | cons c text ih =>
    rw [mapM_letterValue?_cons] at read
    obtain ⟨first, hfirst, hothers⟩ := Option.bind_eq_some_iff.1 read
    obtain ⟨others, hread, rfl⟩ := Option.map_eq_some_iff.1 hothers
    intro value inside
    rcases List.mem_cons.1 inside with rfl | later
    · exact mem_letterValues hfirst
    · exact ih hread value later

theorem eq_nil_iff_of_mapM (read : text.mapM letterValue? = some values) :
    values = [] ↔ text = [] := by
  cases text with
  | nil =>
    cases read
    simp
  | cons c text =>
    rw [mapM_letterValue?_cons] at read
    obtain ⟨first, -, hothers⟩ := Option.bind_eq_some_iff.1 read
    obtain ⟨others, -, rfl⟩ := Option.map_eq_some_iff.1 hothers
    simp

theorem accumulated?_eq_none_iff : accumulated? text = none ↔ ∃ c ∈ text, c ∉ letters := by
  rw [accumulated?, Option.map_eq_none_iff, mapM_letterValue?_eq_none_iff]

/-! ## Sums are not negative -/

/-- What all smaller letters come to. -/
def below (value : Nat) : Nat := (letterValues.filter (· < value)).sum

theorem below_lt {value : Nat} (letter : value ∈ letterValues) : below value < value := by
  have all : ∀ value ∈ letterValues, below value < value := by decide
  exact all value letter

/-- A larger letter has the smaller one below it, and all that the smaller one has. -/
theorem below_add_le {value next : Nat} (letter : value ∈ letterValues)
    (following : next ∈ letterValues) (rises : value < next) :
    below value + value ≤ below next := by
  have all : ∀ value ∈ letterValues, ∀ next ∈ letterValues, value < next →
      below value + value ≤ below next := by decide
  exact all value letter next following rises

theorem below_lt_total {value : Nat} {rest : List Nat}
    (spelled : ∀ v ∈ value :: rest, v ∈ letterValues) :
    (below value : Int) < total (value :: rest) := by
  induction rest generalizing value with
  | nil =>
    have smaller := below_lt (spelled value List.mem_cons_self)
    rw [total]
    omega
  | cons next rest ih =>
    have letter := spelled value List.mem_cons_self
    have following := spelled next (List.mem_cons_of_mem value List.mem_cons_self)
    have behind := ih fun v inside => spelled v (List.mem_cons_of_mem value inside)
    rw [total]
    split
    · next rises =>
      -- what is taken away is made up for by what the larger letter has below it
      have room := below_add_le letter following rises
      omega
    · have smaller := below_lt letter
      omega

theorem total_pos (named : values ≠ []) (spelled : ∀ v ∈ values, v ∈ letterValues) :
    0 < total values := by
  obtain ⟨value, rest, rfl⟩ := List.exists_cons_of_ne_nil named
  have above := below_lt_total spelled
  omega

theorem accumulated?_sound {sum : Int} (read : accumulated? text = some sum) :
    0 ≤ sum ∧ (sum = 0 ↔ text = []) := by
  obtain ⟨values, hvalues, rfl⟩ := Option.map_eq_some_iff.1 read
  rw [← eq_nil_iff_of_mapM hvalues]
  by_cases empty : values = []
  · subst empty
    simp [total]
  · have positive := total_pos empty (mem_letterValues_of_mapM hvalues)
    exact ⟨Int.le_of_lt positive, iff_of_false (Int.ne_of_gt positive) empty⟩

/-- A sum that fits into thirty-two bits is the value: it is neither negative nor cut. -/
theorem value_eq_accumulated
    (fits : ∀ sum, accumulated? text = some sum → sum < UInt32.size) :
    (value text : Int) = (accumulated? text).getD 0 := by
  rw [accumulated?] at fits ⊢
  rw [value]
  cases hvalues : text.mapM letterValue? with
  | none => rfl
  | some values =>
    have read : accumulated? text = some (total values) := by rw [accumulated?, hvalues]; rfl
    have positive := (accumulated?_sound read).1
    have small := fits (total values) (by rw [hvalues]; rfl)
    have whole : (total values).toNat % UInt32.size = (total values).toNat :=
      Nat.mod_eq_of_lt ((Int.toNat_lt positive).2 small)
    show (((total values).toNat % UInt32.size : Nat) : Int) = total values
    rw [whole, Int.toNat_of_nonneg positive]

theorem value_eq_zero_iff
    (fits : ∀ sum, accumulated? text = some sum → sum < UInt32.size) :
    value text = 0 ↔ text = [] ∨ ∃ c ∈ text, c ∉ letters := by
  have same := value_eq_accumulated fits
  rw [← accumulated?_eq_none_iff]
  cases read : accumulated? text with
  | none =>
    rw [read, Option.getD_none] at same
    exact iff_of_true (Int.ofNat.inj same) (Or.inr rfl)
  | some sum =>
    rw [read, Option.getD_some] at same
    rw [← (accumulated?_sound read).2, ← same]
    simp

/-! ## Written numerals -/

/-- The letters for a digit of one place, by its letters for one, five and ten. -/
def digit {α : Type} (one five ten : α) : Nat → List α
  | 0 => []
  | 1 => [one]
  | 2 => [one, one]
  | 3 => [one, one, one]
  | 4 => [one, five]
  | 5 => [five]
  | 6 => [five, one]
  | 7 => [five, one, one]
  | 8 => [five, one, one, one]
  | 9 => [one, ten]
  | _ => []

/-- A number in Roman letters, with as many `M` as it has thousands. -/
def numeral (n : Nat) : Text :=
  List.replicate (n / 1000) 'M' ++ digit 'C' 'D' 'M' (n / 100 % 10) ++
    digit 'X' 'L' 'C' (n / 10 % 10) ++ digit 'I' 'V' 'X' (n % 10)

/-- A text of letters that are worth `low` at least and `high` at most, and `sum` together. -/
def IsWorth (low high : Nat) (text : Text) (sum : Nat) : Prop :=
  ∃ values, text.mapM letterValue? = some values ∧
    (∀ value ∈ values, low ≤ value ∧ value ≤ high) ∧ total values = sum

/-- Nothing is subtracted where no letter of the rest is larger than one in front. -/
theorem total_append {front rest : List Nat} (descends : ∀ x ∈ front, ∀ y ∈ rest, y ≤ x) :
    total (front ++ rest) = total front + total rest := by
  induction front with
  | nil => simp [total]
  | cons value front ih =>
    have others := ih fun x inside => descends x (List.mem_cons_of_mem value inside)
    cases front with
    | nil =>
      cases rest with
      | nil => simp [total]
      | cons next rest =>
        have falls := descends value List.mem_cons_self next List.mem_cons_self
        simp [total, Nat.not_lt.2 falls]
    | cons second front =>
      simp only [List.cons_append, total] at others ⊢
      omega

theorem IsWorth.append {low middle high x y : Nat} {front rest : Text}
    (hfront : IsWorth middle high front x) (hrest : IsWorth low middle rest y)
    (falls : low ≤ middle) (rises : middle ≤ high) :
    IsWorth low high (front ++ rest) (x + y) := by
  obtain ⟨fronts, readFront, boundFront, sumFront⟩ := hfront
  obtain ⟨rests, readRest, boundRest, sumRest⟩ := hrest
  refine ⟨fronts ++ rests, mapM_letterValue?_append readFront readRest, ?_, ?_⟩
  · intro value inside
    rcases List.mem_append.1 inside with first | later
    · exact ⟨Nat.le_trans falls (boundFront value first).1, (boundFront value first).2⟩
    · exact ⟨(boundRest value later).1, Nat.le_trans (boundRest value later).2 rises⟩
  · have descends : ∀ x ∈ fronts, ∀ y ∈ rests, y ≤ x := fun x hx y hy =>
      Nat.le_trans (boundRest y hy).2 (boundFront x hx).1
    rw [total_append descends, sumFront, sumRest, Int.natCast_add]

theorem isWorth_replicate (count : Nat) :
    IsWorth 1000 1000 (List.replicate count 'M') (count * 1000) := by
  induction count with
  | zero => exact ⟨[], rfl, by simp, rfl⟩
  | succ count ih =>
    have first : IsWorth 1000 1000 ['M'] 1000 := ⟨[1000], rfl, by simp, rfl⟩
    have both := first.append ih (Nat.le_refl _) (Nat.le_refl _)
    rwa [Nat.add_comm, ← Nat.succ_mul] at both

theorem mapM_digit {one five ten : Char} {a b c : Nat} (hone : letterValue? one = some a)
    (hfive : letterValue? five = some b) (hten : letterValue? ten = some c) (d : Nat) :
    (digit one five ten d).mapM letterValue? = some (digit a b c d) := by
  unfold digit
  split <;> simp [hone, hfive, hten]

theorem mem_digit {α : Type} {one five ten x : α} {d : Nat} (inside : x ∈ digit one five ten d) :
    x = one ∨ x = five ∨ x = ten := by
  unfold digit at inside
  split at inside <;> simp only [List.mem_cons, List.not_mem_nil, or_false] at inside <;> tauto

theorem total_digit {unit : Nat} (positive : 0 < unit) {d : Nat} (single : d < 10) :
    total (digit unit (5 * unit) (10 * unit) d) = (d * unit : Nat) := by
  interval_cases d <;> simp [digit, total] <;> omega

/-- One place of a numeral is worth its digit. -/
theorem isWorth_digit {one five ten : Char} {unit : Nat} (positive : 0 < unit)
    (hone : letterValue? one = some unit) (hfive : letterValue? five = some (5 * unit))
    (hten : letterValue? ten = some (10 * unit)) {d : Nat} (single : d < 10) :
    IsWorth unit (10 * unit) (digit one five ten d) (d * unit) := by
  refine ⟨digit unit (5 * unit) (10 * unit) d, mapM_digit hone hfive hten d, ?_,
    total_digit positive single⟩
  intro value inside
  rcases mem_digit inside with rfl | rfl | rfl <;> omega

theorem isWorth_numeral (n : Nat) : IsWorth 1 1000 (numeral n) n := by
  have single : ∀ k, k % 10 < 10 := fun k => Nat.mod_lt k (by decide)
  have thousands := isWorth_replicate (n / 1000)
  have hundreds : IsWorth 100 1000 (digit 'C' 'D' 'M' (n / 100 % 10)) (n / 100 % 10 * 100) :=
    isWorth_digit (by decide) rfl rfl rfl (single _)
  have tens : IsWorth 10 100 (digit 'X' 'L' 'C' (n / 10 % 10)) (n / 10 % 10 * 10) :=
    isWorth_digit (by decide) rfl rfl rfl (single _)
  have units : IsWorth 1 10 (digit 'I' 'V' 'X' (n % 10)) (n % 10 * 1) :=
    isWorth_digit (by decide) rfl rfl rfl (single _)
  have whole := ((thousands.append hundreds (by decide) (by decide)).append tens (by decide)
    (by decide)).append units (by decide) (by decide)
  have places : n / 1000 * 1000 + n / 100 % 10 * 100 + n / 10 % 10 * 10 + n % 10 * 1 = n := by
    omega
  rwa [places] at whole

theorem accumulated?_numeral (n : Nat) : accumulated? (numeral n) = some (n : Int) := by
  obtain ⟨values, read, -, sum⟩ := isWorth_numeral n
  rw [accumulated?, read, Option.map_some, sum]

theorem value_numeral {n : Nat} (small : n < UInt32.size) : value (numeral n) = n := by
  have fits : ∀ sum, accumulated? (numeral n) = some sum → sum < UInt32.size := by
    intro sum read
    obtain rfl : (n : Int) = sum := Option.some.inj ((accumulated?_numeral n).symm.trans read)
    exact Int.ofNat_lt.2 small
  have same := value_eq_accumulated fits
  rw [accumulated?_numeral, Option.getD_some] at same
  exact Int.ofNat.inj same

example : numeral 1994 = "MCMXCIV".toList ∧ value "MCMXCIV" = 1994 := by decide

/-- A number is read back from its written form, whatever the number of its thousands. A text
is worth nothing just if it is empty or has a character that is no Roman letter, because the
signed sum of letters is above zero in whatever order they stand. -/
theorem value_numeral_and_eq_zero_iff :
    (∀ n, 1 ≤ n → n < UInt32.size → value (numeral n) = n) ∧
    ∀ text,
      (accumulated? text = none ↔ ∃ c ∈ text, c ∉ letters) ∧
      (∀ sum, accumulated? text = some sum → 0 ≤ sum ∧ (sum = 0 ↔ text = [])) ∧
      ((∀ sum, accumulated? text = some sum → sum < UInt32.size) →
        (value text : Int) = (accumulated? text).getD 0 ∧
        (value text = 0 ↔ text = [] ∨ ∃ c ∈ text, c ∉ letters)) := by
  refine ⟨fun n _ small => value_numeral small, fun text => ⟨accumulated?_eq_none_iff,
    fun sum => accumulated?_sound, fun fits => ?_⟩⟩
  exact ⟨value_eq_accumulated fits, value_eq_zero_iff fits⟩

/-- Four thousand less six, six letters that are all taken away, and a foreign letter. -/
theorem value_numeral_and_eq_zero_iff_rising :
    (1 ≤ 3994 ∧ 3994 < UInt32.size ∧ value (numeral 3994) = 3994) ∧
    (accumulated? "IVXLCDM" = some 334 ∧ (value "IVXLCDM" : Int) = 334 ∧ value "IVXLCDM" ≠ 0) ∧
    accumulated? "XIJ" = none ∧ value "XIJ" = 0 := by
  have rising : accumulated? "IVXLCDM" = some 334 := by decide
  have foreign : accumulated? "XIJ" = none := by decide
  have risingFits : ∀ sum, accumulated? "IVXLCDM" = some sum → sum < UInt32.size := by
    intro sum read
    cases rising.symm.trans read
    decide
  have foreignFits : ∀ sum, accumulated? "XIJ" = some sum → sum < UInt32.size := by
    intro sum read
    cases foreign.symm.trans read
  obtain ⟨readBack, read⟩ := value_numeral_and_eq_zero_iff
  obtain ⟨-, -, risingValue⟩ := read "IVXLCDM"
  obtain ⟨stranger, -, foreignValue⟩ := read "XIJ"
  obtain ⟨same, -⟩ := risingValue risingFits
  refine ⟨⟨by decide, by decide, readBack 3994 (by decide) (by decide)⟩, ⟨rising, ?_, ?_⟩,
    foreign, ?_⟩
  · rw [same, rising, Option.getD_some]
  · intro nothing
    rw [nothing, rising] at same
    cases same
  · exact (foreignValue foreignFits).2.2 (Or.inr (stranger.1 foreign))

end HandHistory.Numeral.Roman
