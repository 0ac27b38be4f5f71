import HandHistory.Text.Blank

/-!
# Words of a line

A line of a hand is a first word and further words, each behind a space. What is
looked for in it begins with a space too, so a search passes over the first word
and compares only the beginnings of the others: `cut?_spaced_eq_none` says when it
finds nothing, and `cut?_of_not_mem` what it finds.
-/

namespace HandHistory.Text

variable {front text rest : Text} {c : Char}

/-! ## Beginnings and ends -/

theorem stripStart?_append (lead rest : Text) : stripStart? lead (lead ++ rest) = some rest :=
  stripStart?_eq_some_iff.2 rfl

theorem stripStart?_eq_none {lead text : Text} (other : ∀ rest, text ≠ lead ++ rest) :
    stripStart? lead text = none := by
  cases found : stripStart? lead text with
  | none => rfl
  | some rest => exact absurd (stripStart?_eq_some_iff.1 found) (other rest)

theorem stripEnd?_append (front tail : Text) : stripEnd? tail (front ++ tail) = some front := by
  simp [stripEnd?, stripStart?_append]

theorem stripEnd?_eq_some_iff {tail text front : Text} :
    stripEnd? tail text = some front ↔ text = front ++ tail := by
  constructor
  · intro found
    obtain ⟨turned, hturned, rfl⟩ := Option.map_eq_some_iff.1 found
    rw [← List.reverse_reverse text, stripStart?_eq_some_iff.1 hturned, List.reverse_append,
      List.reverse_reverse]
  · rintro rfl
    exact stripEnd?_append front tail

theorem utf8Size_append (front rest : Text) :
    utf8Size (front ++ rest) = utf8Size front + utf8Size rest := by
  induction front with
  | nil => simp [utf8Size]
  | cons c front ih => rw [List.cons_append, utf8Size, utf8Size, ih, Nat.add_assoc]

/-- Texts that end with different characters do not end with each other. -/
theorem stripEnd?_eq_none {front tail : Text} {c d : Char} (different : d ≠ c) :
    stripEnd? (tail ++ [d]) (front ++ [c]) = none := by
  simp [stripEnd?, stripStart?, different]

/-- The text begins with a character that is not trimmed. -/
def Starts (text : Text) : Prop := ∃ c rest, text = c :: rest ∧ isLineBlank c = false

/-- The text ends with a character that is not trimmed. -/
def Ends (text : Text) : Prop := ∃ front c, text = front ++ [c] ∧ isLineBlank c = false

theorem Starts.append (starts : Starts front) (text : Text) : Starts (front ++ text) := by
  obtain ⟨c, rest, rfl, solid⟩ := starts
  exact ⟨c, rest ++ text, rfl, solid⟩

theorem Ends.append (ends : Ends text) (front : Text) : Ends (front ++ text) := by
  obtain ⟨lead, c, rfl, solid⟩ := ends
  exact ⟨front ++ lead, c, by simp, solid⟩

/-- A text that neither begins nor ends with a blank is trimmed already. -/
theorem trimLine_eq_self (starts : Starts text) (ends : Ends text) : trimLine text = text := by
  have head : text.dropWhile isLineBlank = text := by
    obtain ⟨c, rest, rfl, solid⟩ := starts
    exact List.dropWhile_cons_of_neg (by simp [solid])
  rw [trimLine, trimBy, head, trimEndBy]
  obtain ⟨front, c, rfl, solid⟩ := ends
  rw [List.reverse_append, List.reverse_singleton, List.singleton_append,
    List.dropWhile_cons_of_neg (by simp [solid]), List.reverse_cons, List.reverse_reverse]

/-- A line keeps a beginning that has no blank at its ends. -/
theorem exists_trimLine_append (starts : Starts text) (ends : Ends text) (rest : Text) :
    ∃ rest', trimLine (text ++ rest) = text ++ rest' := by
  obtain ⟨c, others, rfl, hc⟩ := starts
  obtain ⟨front, d, heq, hd⟩ := ends
  have kept : ((c :: others) ++ rest).dropWhile isLineBlank = (c :: others) ++ rest :=
    List.dropWhile_cons_of_neg (by simp [hc])
  rw [trimLine, trimBy, kept, trimEndBy, List.reverse_append, List.dropWhile_append]
  split
  · refine ⟨[], ?_⟩
    rw [heq, List.reverse_append, List.reverse_singleton, List.singleton_append,
      List.dropWhile_cons_of_neg (by simp [hd])]
    simp
  · exact ⟨_, by rw [List.reverse_append, List.reverse_reverse]⟩

theorem dropWhile_eq_nil {drop : Char → Bool} (dropped : ∀ c ∈ text, drop c = true) :
    text.dropWhile drop = [] := by
  rw [← List.append_nil text, List.dropWhile_append_of_pos dropped, List.dropWhile_nil]

/-- What is trimmed from the end of a text may as well not stand there. -/
theorem trimBy_append {drop : Char → Bool} (dropped : ∀ c ∈ rest, drop c = true) (text : Text) :
    trimBy drop (text ++ rest) = trimBy drop text := by
  have gone : ∀ turned : Text, (rest.reverse ++ turned).dropWhile drop = turned.dropWhile drop :=
    fun turned => List.dropWhile_append_of_pos fun c inside => dropped c (List.mem_reverse.1 inside)
  rw [trimBy, trimBy, trimEndBy, trimEndBy, List.dropWhile_append]
  split
  · next blank =>
    rw [dropWhile_eq_nil dropped, List.isEmpty_iff.1 blank]
  · rw [List.reverse_append, gone]

theorem trimBy_cons {drop : Char → Bool} (dropped : drop c = true) (text : Text) :
    trimBy drop (c :: text) = trimBy drop text := by
  rw [trimBy, trimBy, List.dropWhile_cons_of_pos dropped]

theorem trimBy_eq_nil {drop : Char → Bool} (dropped : ∀ c ∈ text, drop c = true) :
    trimBy drop text = [] := by
  rw [trimBy, dropWhile_eq_nil dropped]
  rfl

theorem Starts.ne_nil (starts : Starts text) : text ≠ [] := by
  obtain ⟨c, rest, rfl, -⟩ := starts
  exact List.cons_ne_nil c rest

/-! ## Searching -/

/-- A search passes over what does not have the first character that is wanted. -/
theorem cut?_append (absent : c ∉ front) (needle text : Text) :
    cut? (c :: needle) (front ++ text) =
      (cut? (c :: needle) text).map fun found => (front ++ found.1, found.2) := by
  induction front with
  | nil => simp
  | cons d front ih =>
    have different : c ≠ d := fun same => absent (same ▸ List.mem_cons_self)
    have further := ih fun inside => absent (List.mem_cons_of_mem d inside)
    simp only [List.cons_append, cut?, stripStart?, different, if_false, further, Option.map_map]
    rfl

/-- A search finds what is wanted behind a text that does not have its first character. -/
theorem cut?_of_not_mem (absent : c ∉ front) (needle rest : Text) :
    cut? (c :: needle) (front ++ (c :: needle ++ rest)) = some (front, rest) := by
  have here : cut? (c :: needle) (c :: needle ++ rest) = some ([], rest) := by
    simp only [List.cons_append, cut?, stripStart?, if_true, stripStart?_append]
  rw [cut?_append absent, here]
  simp

/-- What has a character that a text does not have is not found in it. -/
theorem cut?_eq_none_of_not_mem {needle : Text} (wanted : c ∈ needle) (absent : c ∉ text) :
    cut? needle text = none := by
  cases found : cut? needle text with
  | none => rfl
  | some pair =>
    obtain ⟨front, rest⟩ := pair
    refine absurd ?_ absent
    rw [cut?_eq_some found]
    simp [wanted]

theorem has_append (absent : c ∉ front) (needle text : Text) :
    has (c :: needle) (front ++ text) = has (c :: needle) text := by
  rw [has, cut?_append absent, Option.isSome_map, has]

/-- A search for a space and more looks at the word behind a space, and then further on. -/
theorem has_space {word : Text} (plain : ' ' ∉ word) (needle text : Text) :
    has (' ' :: needle) (' ' :: (word ++ text)) =
      (hasStart needle (word ++ text) || has (' ' :: needle) text) := by
  rw [has, cut?, hasStart]
  simp only [stripStart?, if_true]
  cases stripStart? needle (word ++ text) with
  | none => simpa [has] using has_append plain needle text
  | some rest => rfl

/-! ## Words -/

/-- Words, each behind a space. -/
def spaced : List Text → Text
  | [] => []
  | word :: words => ' ' :: (word ++ spaced words)

theorem spaced_append (words others : List Text) :
    spaced (words ++ others) = spaced words ++ spaced others := by
  induction words with
  | nil => rfl
  | cons word words ih => simp [spaced, ih]

/-- A key without a space that a word does not begin with does not begin what the
word begins. -/
theorem stripStart?_word {key word : Text} (solid : ' ' ∉ key) (other : stripStart? key word = none)
    (more : Text) (words : List Text) :
    stripStart? (key ++ more) (word ++ spaced words) = none := by
  apply stripStart?_eq_none
  intro rest same
  rw [List.append_assoc] at same
  rcases List.append_eq_append_iff.1 same with ⟨behind, hkey, hmore⟩ | ⟨behind, hword, -⟩
  · -- the key would reach beyond the word, and begin there with a space
    cases behind with
    | nil =>
      rw [List.append_nil] at hkey
      rw [← hkey, stripStart?_eq_some_iff.2 (List.append_nil key).symm] at other
      cases other
    | cons d behind =>
      cases words with
      | nil => cases hmore
      | cons next words =>
        obtain ⟨rfl, -⟩ := List.cons.inj hmore
        exact solid (hkey ▸ by simp)
  · rw [hword, stripStart?_append] at other
    cases other

/-- A search for a space and more passes over a word. -/
theorem cut?_spaced_cons {needle word : Text} (plain : ' ' ∉ word) {words : List Text}
    (here : stripStart? needle (word ++ spaced words) = none)
    (next : cut? (' ' :: needle) (spaced words) = none) :
    cut? (' ' :: needle) (spaced (word :: words)) = none := by
  simp only [spaced, cut?, stripStart?, if_true, here]
  rw [cut?_append plain, next]
  rfl

/-- The word behind the space that a needle begins with. -/
def firstWord (needle : Text) : Text := needle.tail.takeWhile (· != ' ')

theorem space_not_mem_firstWord (needle : Text) : ' ' ∉ firstWord needle := by
  intro inside
  have other := List.all_eq_true.1 List.all_takeWhile _ inside
  simp at other

/-- A needle that begins with a space is not found in words of which none begins with
the first word of the needle. -/
theorem cut?_spaced_eq_none {needle : Text} (begins : needle.head? = some ' ') {words : List Text}
    (plain : ∀ word ∈ words, ' ' ∉ word)
    (other : ∀ word ∈ words, stripStart? (firstWord needle) word = none) :
    cut? needle (spaced words) = none := by
  obtain ⟨rest, rfl⟩ := List.head?_eq_some_iff.1 begins
  induction words with
  | nil => rfl
  | cons word words ih =>
    have next := ih (fun w hw => plain w (List.mem_cons_of_mem _ hw))
      fun w hw => other w (List.mem_cons_of_mem _ hw)
    have here := stripStart?_word (space_not_mem_firstWord (' ' :: rest))
      (other word List.mem_cons_self) (rest.dropWhile (· != ' ')) words
    rw [firstWord, List.tail_cons, List.takeWhile_append_dropWhile] at here
    exact cut?_spaced_cons (plain word List.mem_cons_self) here next

/-- How a text goes on that begins with one word and then a space. -/
theorem stripStart?_first {key first : Text} (solid : ' ' ∉ key) (whole : ' ' ∉ first)
    (more text : Text) :
    stripStart? (key ++ ' ' :: more) (first ++ ' ' :: text) =
      if first = key then stripStart? more text else none := by
  induction key generalizing first with
  | nil =>
    cases first with
    | nil => simp [stripStart?]
    | cons d first =>
      have different : ' ' ≠ d := fun same => whole (same ▸ List.mem_cons_self)
      simp [stripStart?, different]
  | cons k key ih =>
    cases first with
    | nil =>
      have different : k ≠ ' ' := fun same => solid (same ▸ List.mem_cons_self)
      simp [stripStart?, different]
    | cons d first =>
      have step := ih (fun inside => solid (List.mem_cons_of_mem k inside))
        fun inside => whole (List.mem_cons_of_mem d inside)
      by_cases same : k = d
      · simp [stripStart?, same, step]
      · have other : d ≠ k := fun h => same h.symm
        simp [stripStart?, same, other]

theorem fieldsBy_append {isSeparator : Char → Bool} (separates : isSeparator c = true)
    (text rest : Text) :
    fieldsBy isSeparator (text ++ c :: rest) =
      fieldsBy isSeparator text ++ fieldsBy isSeparator rest := by
  induction text with
  | nil => simp [fieldsBy, separates]
  | cons d text ih =>
    simp only [List.cons_append, fieldsBy, ih]
    split
    · rfl
    · cases h : fieldsBy isSeparator text with
      | nil => exact absurd h (fieldsBy_ne_nil isSeparator text)
      | cons piece pieces => rfl

theorem fieldsBy_eq_singleton {isSeparator : Char → Bool}
    (solid : ∀ c ∈ text, isSeparator c = false) : fieldsBy isSeparator text = [text] := by
  induction text with
  | nil => rfl
  | cons c text ih =>
    have head := solid c List.mem_cons_self
    simp [fieldsBy, head, ih fun d hd => solid d (List.mem_cons_of_mem c hd), consHead]

theorem words_append (text rest : Text) :
    words (text ++ ' ' :: rest) = words text ++ words rest := by
  rw [words, fieldsBy_append (by decide), List.filter_append]
  rfl

theorem words_eq_singleton (named : text ≠ []) (solid : ∀ c ∈ text, isBlank c = false) :
    words text = [text] := by
  rw [words, fieldsBy_eq_singleton solid]
  simp [named]

/-! ## First and last occurrences -/

/-- The needle does not occur before it occurs between two texts. -/
def StandsFirst (needle front rest : Text) : Prop :=
  ∀ earlier later, front ++ needle ++ rest = earlier ++ needle ++ later →
    front.length ≤ earlier.length

/-- The needle does not occur again after it occurs between two texts. -/
def StandsLast (needle front rest : Text) : Prop :=
  ∀ earlier later, front ++ needle ++ rest = earlier ++ needle ++ later →
    earlier.length ≤ front.length

/-- Whatever occurs in a text is found, and nowhere later. -/
theorem exists_cut?_of_eq {needle text earlier later : Text}
    (occurs : text = earlier ++ needle ++ later) :
    ∃ front rest, cut? needle text = some (front, rest) ∧ front.length ≤ earlier.length := by
  induction text generalizing earlier with
  | nil =>
    obtain ⟨rfl, rfl, rfl⟩ : earlier = [] ∧ needle = [] ∧ later = [] := by
      simpa using occurs.symm
    exact ⟨[], [], rfl, Nat.le_refl 0⟩
  | cons c text ih =>
    cases here : stripStart? needle (c :: text) with
    | some rest => exact ⟨[], rest, by rw [cut?, here], Nat.zero_le _⟩
    | none =>
      cases earlier with
      | nil =>
        rw [occurs, List.nil_append, stripStart?_append] at here
        cases here
      | cons d earlier =>
        obtain ⟨rfl, further⟩ := List.cons.inj occurs
        obtain ⟨front, rest, found, first⟩ := ih further
        exact ⟨c :: front, rest, by rw [cut?, here, found]; rfl, Nat.succ_le_succ first⟩

/-- A search finds the first occurrence. -/
theorem cut?_eq_some_iff {needle text front rest : Text} :
    cut? needle text = some (front, rest) ↔
      text = front ++ needle ++ rest ∧ StandsFirst needle front rest := by
  constructor
  · intro found
    have there := cut?_eq_some found
    refine ⟨there, fun earlier later occurs => ?_⟩
    rw [there] at found
    obtain ⟨other, behind, same, first⟩ := exists_cut?_of_eq occurs
    rw [found] at same
    cases same
    exact first
  · rintro ⟨rfl, first⟩
    obtain ⟨other, behind, found, earlier⟩ := exists_cut?_of_eq rfl
    have there := cut?_eq_some found
    have same : front.length = other.length := Nat.le_antisymm (first other behind there) earlier
    rw [List.append_assoc, List.append_assoc] at there
    obtain ⟨rfl, tails⟩ := List.append_inj there same
    rw [found, List.append_cancel_left tails]

/-- Whatever occurs in a text is found from the end, and nowhere earlier. -/
theorem exists_cutLast?_of_eq {needle text earlier later : Text}
    (occurs : text = earlier ++ needle ++ later) :
    ∃ front rest, cutLast? needle text = some (front, rest) ∧ earlier.length ≤ front.length := by
  induction text generalizing earlier with
  | nil =>
    obtain ⟨rfl, rfl, rfl⟩ : earlier = [] ∧ needle = [] ∧ later = [] := by
      simpa using occurs.symm
    exact ⟨[], [], rfl, Nat.le_refl 0⟩
  | cons c text ih =>
    cases earlier with
    | nil =>
      cases found : cutLast? needle text with
      | some pair => exact ⟨c :: pair.1, pair.2, by rw [cutLast?, found], Nat.zero_le _⟩
      | none =>
        refine ⟨[], later, ?_, Nat.le_refl 0⟩
        rw [cutLast?, found, occurs, List.nil_append, stripStart?_append]
        rfl
    | cons d earlier =>
      obtain ⟨rfl, further⟩ := List.cons.inj occurs
      obtain ⟨front, rest, found, last⟩ := ih further
      exact ⟨c :: front, rest, by rw [cutLast?, found], Nat.succ_le_succ last⟩

theorem cutLast?_eq_some {needle text front rest : Text}
    (found : cutLast? needle text = some (front, rest)) : text = front ++ needle ++ rest := by
  induction text generalizing front with
  | nil =>
    obtain ⟨r, hr, heq⟩ := Option.map_eq_some_iff.1 found
    cases heq
    simpa using stripStart?_eq_some_iff.1 hr
  | cons c text ih =>
    rw [cutLast?] at found
    split at found
    · next before rest later =>
      cases found
      rw [ih later]
      rfl
    · obtain ⟨r, hr, heq⟩ := Option.map_eq_some_iff.1 found
      cases heq
      simpa using stripStart?_eq_some_iff.1 hr

/-- A search from the end finds the last occurrence. -/
theorem cutLast?_eq_some_iff {needle text front rest : Text} :
    cutLast? needle text = some (front, rest) ↔
      text = front ++ needle ++ rest ∧ StandsLast needle front rest := by
  constructor
  · intro found
    have there := cutLast?_eq_some found
    refine ⟨there, fun earlier later occurs => ?_⟩
    rw [there] at found
    obtain ⟨other, behind, same, last⟩ := exists_cutLast?_of_eq occurs
    rw [found] at same
    cases same
    exact last
  · rintro ⟨rfl, last⟩
    obtain ⟨other, behind, found, later⟩ := exists_cutLast?_of_eq rfl
    have there := cutLast?_eq_some found
    have same : front.length = other.length := Nat.le_antisymm later (last other behind there)
    rw [List.append_assoc, List.append_assoc] at there
    obtain ⟨rfl, tails⟩ := List.append_inj there same
    rw [found, List.append_cancel_left tails]

theorem has_eq_true_iff {needle text : Text} : has needle text = true ↔ needle <:+: text := by
  constructor
  · intro inside
    obtain ⟨⟨front, rest⟩, found⟩ := Option.isSome_iff_exists.1 inside
    exact ⟨front, rest, (cut?_eq_some found).symm⟩
  · rintro ⟨front, rest, occurs⟩
    obtain ⟨_, _, found, -⟩ := exists_cut?_of_eq occurs.symm
    rw [has, found]
    rfl

theorem hasEnd_eq_true_iff {tail text : Text} : hasEnd tail text = true ↔ tail <:+ text := by
  constructor
  · intro ends
    obtain ⟨front, found⟩ := Option.isSome_iff_exists.1 ends
    exact ⟨front, (stripEnd?_eq_some_iff.1 found).symm⟩
  · rintro ⟨front, rfl⟩
    rw [hasEnd, stripEnd?_append]
    rfl

/-! ## Texts in front of a space -/

theorem ends_trimLine (named : trimLine text ≠ []) : Ends (trimLine text) := by
  rw [trimLine, trimBy, trimEndBy] at named ⊢
  cases cut : (text.dropWhile isLineBlank).reverse.dropWhile isLineBlank with
  | nil => simp [cut] at named
  | cons c rest =>
    have solid := List.head?_dropWhile_not isLineBlank (text.dropWhile isLineBlank).reverse
    rw [cut] at solid
    exact ⟨rest.reverse, c, List.reverse_cons, by simpa using solid⟩

theorem starts_trimLine (named : trimLine text ≠ []) : Starts (trimLine text) := by
  obtain ⟨c, rest, same⟩ := List.exists_cons_of_ne_nil named
  have whole : text.dropWhile isLineBlank = trimLine text ++
      ((text.dropWhile isLineBlank).reverse.takeWhile isLineBlank).reverse := by
    rw [trimLine, trimBy, trimEndBy, ← List.reverse_append, List.takeWhile_append_dropWhile,
      List.reverse_reverse]
  have solid := List.head?_dropWhile_not isLineBlank text
  rw [whole, same] at solid
  exact ⟨c, rest, same, by simpa using solid⟩

theorem length_trimEndBy_le (drop : Char → Bool) (text : Text) :
    (trimEndBy drop text).length ≤ text.length := by
  have fewer := (@List.dropWhile_sublist _ text.reverse drop).length_le
  rwa [List.length_reverse, ← List.length_reverse] at fewer

theorem length_trimLine_le (text : Text) : (trimLine text).length ≤ text.length :=
  Nat.le_trans (length_trimEndBy_le isLineBlank _) (List.dropWhile_sublist isLineBlank).length_le

/-- The characters that stand behind a space. -/
def behindSpaces : Text → List Char
  | [] => []
  | c :: text => if c = ' ' then text.head?.toList ++ behindSpaces text else behindSpaces text

theorem mem_behindSpaces (front text : Text) (c : Char) :
    c ∈ behindSpaces (front ++ ' ' :: c :: text) := by
  induction front with
  | nil => simp [behindSpaces]
  | cons d front ih =>
    rw [List.cons_append, behindSpaces]
    split
    · exact List.mem_append_right _ ih
    · exact ih

/-- A key reaches beyond a space only with a character that it has behind a space. -/
theorem stripStart?_append_space {key : Text} (other : c ∉ behindSpaces key)
    (absent : stripStart? key (front ++ " ") = none) :
    stripStart? key (front ++ ' ' :: c :: text) = none := by
  apply stripStart?_eq_none
  intro rest same
  have parted : (front ++ " ".toList) ++ c :: text = key ++ rest := by simpa using same
  rcases List.append_eq_append_iff.1 parted with ⟨beyond, hkey, hbeyond⟩ | ⟨left, hfront, -⟩
  · cases beyond with
    | nil =>
      rw [List.append_nil] at hkey
      rw [← hkey, stripStart?_eq_some_iff.2 (List.append_nil key).symm] at absent
      cases absent
    | cons d beyond =>
      obtain ⟨rfl, -⟩ := List.cons.inj hbeyond
      refine other ?_
      rw [hkey, List.append_assoc]
      exact mem_behindSpaces front beyond c
  · rw [hfront, stripStart?_append] at absent
    cases absent

theorem hasStart_append_space {key : Text} (other : c ∉ behindSpaces key)
    (absent : hasStart key (front ++ " ") = false) :
    hasStart key (front ++ ' ' :: c :: text) = false := by
  rw [hasStart, Option.isSome_eq_false_iff, Option.isNone_iff_eq_none] at absent ⊢
  exact stripStart?_append_space other absent

/-- What is not found up to a space is found behind the text in front of it, or nowhere. -/
theorem cut?_append_space {key : Text} (other : c ∉ behindSpaces key)
    (absent : has (' ' :: key) (front ++ " ") = false) :
    cut? (' ' :: key) (front ++ ' ' :: c :: text) =
      (cut? (' ' :: key) (' ' :: c :: text)).map fun found => (front ++ found.1, found.2) := by
  induction front with
  | nil => simp
  | cons d front ih =>
    rw [has, Option.isSome_eq_false_iff, Option.isNone_iff_eq_none] at absent
    rw [List.cons_append, cut?] at absent
    split at absent
    · cases absent
    · next here =>
      have further := Option.map_eq_none_iff.1 absent
      have start : stripStart? (' ' :: key) (d :: (front ++ ' ' :: c :: text)) = none := by
        rw [stripStart?] at here ⊢
        split
        · next same =>
          rw [if_pos same] at here
          exact stripStart?_append_space other here
        · rfl
      rw [List.cons_append, cut?, start]
      dsimp only
      rw [ih (by rw [has, further]; rfl), Option.map_map]
      rfl

/-- What does not occur in a text does not occur in what that text begins with. -/
theorem has_eq_false_of_append {needle : Text} (absent : has needle (front ++ text) = false) :
    has needle front = false := by
  rw [← Bool.not_eq_true] at absent ⊢
  intro inside
  obtain ⟨⟨earlier, later⟩, found⟩ := Option.isSome_iff_exists.1 inside
  have occurs : front ++ text = earlier ++ needle ++ (later ++ text) := by
    rw [cut?_eq_some found]
    simp
  obtain ⟨_, _, there, -⟩ := exists_cut?_of_eq occurs
  apply absent
  rw [has, there]
  rfl

theorem hasStart_eq_false_of_append {key : Text}
    (absent : hasStart key (front ++ text) = false) : hasStart key front = false := by
  rw [← Bool.not_eq_true] at absent ⊢
  intro inside
  obtain ⟨rest, found⟩ := Option.isSome_iff_exists.1 inside
  apply absent
  rw [stripStart?_eq_some_iff.1 found, List.append_assoc, hasStart, stripStart?_append]
  rfl

/-- What is found only from the end of a text on does not occur in it, also not with the
space that follows. -/
theorem has_eq_false_of_cut? {needle earlier later : Text} (long : 2 ≤ needle.length)
    (found : cut? needle (front ++ ' ' :: text) = some (earlier, later))
    (late : front.length ≤ earlier.length) : has needle (front ++ " ") = false := by
  cases inside : has needle (front ++ " ") with
  | false => rfl
  | true =>
    obtain ⟨⟨before, behind⟩, there⟩ := Option.isSome_iff_exists.1 inside
    have occurs := cut?_eq_some there
    have lengths : front.length + 1 = before.length + needle.length + behind.length := by
      have same := congrArg List.length occurs
      rwa [List.length_append, List.length_append, List.length_append] at same
    obtain ⟨whole, first⟩ := cut?_eq_some_iff.1 found
    have further := first before (behind ++ text) (by
      rw [← whole, ← List.append_assoc, ← occurs]
      simp)
    omega

/-- What does not occur behind a text is found, if at all, before that text ends. -/
theorem length_lt_of_cut? {needle lead earlier later : Text} (absent : cut? needle text = none)
    (found : cut? needle (lead ++ text) = some (earlier, later)) :
    earlier.length < lead.length := by
  apply Nat.lt_of_not_ge
  intro far
  have there := cut?_eq_some found
  rw [List.append_assoc] at there
  rcases List.append_eq_append_iff.1 there with ⟨beyond, -, hbeyond⟩ | ⟨beyond, hlead, hbeyond⟩
  · obtain ⟨_, _, occurs, -⟩ := exists_cut?_of_eq (hbeyond.trans (List.append_assoc _ _ _).symm)
    rw [absent] at occurs
    cases occurs
  · have short : beyond = [] := by
      have lengths := congrArg List.length hlead
      rw [List.length_append] at lengths
      exact List.eq_nil_of_length_eq_zero (by omega)
    rw [short, List.nil_append] at hbeyond
    obtain ⟨_, _, occurs, -⟩ := @exists_cut?_of_eq needle text [] later hbeyond.symm
    rw [absent] at occurs
    cases occurs

/-! ## The last occurrence -/

theorem cutLast?_append {needle behind : Text}
    (found : cutLast? needle text = some (rest, behind)) (front : Text) :
    cutLast? needle (front ++ text) = some (front ++ rest, behind) := by
  induction front with
  | nil => exact found
  | cons c front ih => rw [List.cons_append, cutLast?, ih, List.cons_append]

theorem cutLast?_eq_none {needle : Text} (absent : has needle text = false) :
    cutLast? needle text = none := by
  cases found : cutLast? needle text with
  | none => rfl
  | some pair =>
    have occurs : needle <:+: text := ⟨pair.1, pair.2, (cutLast?_eq_some found).symm⟩
    rw [has_eq_true_iff.2 occurs] at absent
    cases absent

theorem cutLast?_of_not_mem (absent : c ∉ rest) (front : Text) :
    cutLast? [c] (front ++ c :: rest) = some (front, rest) := by
  have nowhere : has [c] rest = false := by
    rw [has, cut?_eq_none_of_not_mem List.mem_cons_self absent]
    rfl
  have here : cutLast? [c] (c :: rest) = some ([], rest) := by
    simp [cutLast?, cutLast?_eq_none nowhere, stripStart?]
  simpa using cutLast?_append here front

/-! ## Bracket groups -/

/-- A group in brackets at the end of a text is its last group. -/
theorem lastBracketGroup?_append {group : Text} (noOpening : '[' ∉ group)
    (noClosing : ']' ∉ group) (front : Text) :
    lastBracketGroup? (front ++ '[' :: (group ++ [']'])) = some group := by
  have opened : cutLast? ['['] (front ++ '[' :: (group ++ [']'])) =
      some (front, group ++ [']']) := by
    refine cutLast?_of_not_mem ?_ front
    simp [noOpening]
  have closed : cut? [']'] (group ++ [']']) = some (group, []) :=
    cut?_of_not_mem noClosing [] []
  simp [lastBracketGroup?, opened, closed]

/-! ## Pieces -/

/-- A cut at one character is the division into fields. -/
theorem split_singleton (c : Char) (text : Text) : split [c] text = fields c text := by
  show splitFrom [c] 0 text = fields c text
  induction text with
  | nil => rfl
  | cons d text ih =>
    rw [fields] at ih ⊢
    by_cases same : c = d
    · subst same
      simp [splitFrom, hasStart, stripStart?, fieldsBy, ih]
    · have other : d ≠ c := fun h => same h.symm
      simp [splitFrom, hasStart, stripStart?, fieldsBy, same, other, ih]

theorem join_cons_cons (separator piece next : Text) (pieces : List Text) :
    join separator (piece :: next :: pieces) =
      piece ++ separator ++ join separator (next :: pieces) := rfl

theorem join_append {separator : Text} {front rest : List Text} (some : front ≠ [])
    (more : rest ≠ []) :
    join separator (front ++ rest) = join separator front ++ separator ++ join separator rest := by
  obtain ⟨next, others, rfl⟩ := List.exists_cons_of_ne_nil more
  induction front with
  | nil => exact absurd rfl some
  | cons piece front ih =>
    cases front with
    | nil => rfl
    | cons second front =>
      rw [List.cons_append, List.cons_append, join_cons_cons, join_cons_cons, ← List.cons_append,
        ih (List.cons_ne_nil second front)]
      simp only [List.append_assoc]

/-- Pieces without the separator are the fields of what joins them with it. -/
theorem fields_join {pieces : List Text} (nonempty : pieces ≠ [])
    (whole : ∀ piece ∈ pieces, c ∉ piece) : fields c (join [c] pieces) = pieces := by
  induction pieces with
  | nil => exact absurd rfl nonempty
  | cons piece pieces ih =>
    have solid : ∀ d ∈ piece, (d == c) = false := by
      intro d hd
      refine beq_eq_false_iff_ne.2 ?_
      rintro rfl
      exact whole piece List.mem_cons_self hd
    cases pieces with
    | nil => exact fieldsBy_eq_singleton solid
    | cons next pieces =>
      have others := ih (List.cons_ne_nil next pieces)
        fun other hother => whole other (List.mem_cons_of_mem piece hother)
      rw [join_cons_cons, fields, List.append_assoc, List.singleton_append,
        fieldsBy_append (by simp), fieldsBy_eq_singleton solid]
      exact congrArg (piece :: ·) others

theorem join_consHead (separator : Text) (c : Char) {pieces : List Text} (some : pieces ≠ []) :
    join separator (consHead c pieces) = c :: join separator pieces := by
  match pieces with
  | [] => exact absurd rfl some
  | [piece] => rfl
  | piece :: next :: others => rfl

/-- The fields of a text, joined with what separates them, are the text again. -/
theorem join_fields (c : Char) (text : Text) : join [c] (fields c text) = text := by
  induction text with
  | nil => rfl
  | cons d text ih =>
    have nonempty := fieldsBy_ne_nil (· == c) text
    rw [fields] at ih ⊢
    rw [fieldsBy]
    split
    · next same =>
      obtain ⟨piece, pieces, hpieces⟩ := List.exists_cons_of_ne_nil nonempty
      rw [hpieces, join_cons_cons, ← hpieces, ih, List.nil_append, List.singleton_append,
        beq_iff_eq.1 same]
    · rw [join_consHead [c] d nonempty, ih]

theorem not_mem_of_mem_fields {piece : Text} (cut : piece ∈ fields c text) : c ∉ piece := by
  induction text generalizing piece with
  | nil =>
    rw [List.mem_singleton.1 cut]
    exact List.not_mem_nil
  | cons d text ih =>
    obtain ⟨first, others, hfirst⟩ := List.exists_cons_of_ne_nil (fieldsBy_ne_nil (· == c) text)
    rw [fields] at ih cut
    rw [fieldsBy] at cut
    split at cut
    · rcases List.mem_cons.1 cut with rfl | later
      · exact List.not_mem_nil
      · exact ih later
    · next other =>
      rw [hfirst] at cut ih
      rcases List.mem_cons.1 cut with rfl | later
      · have different : c ≠ d := fun same => other (by simp [same])
        exact List.not_mem_cons_of_ne_of_not_mem different (ih List.mem_cons_self)
      · exact ih (List.mem_cons_of_mem first later)

theorem mem_join {separator : Text} {pieces : List Text} (inside : c ∈ join separator pieces) :
    c ∈ separator ∨ ∃ piece ∈ pieces, c ∈ piece := by
  induction pieces with
  | nil => cases inside
  | cons piece pieces ih =>
    cases pieces with
    | nil => exact Or.inr ⟨piece, List.mem_cons_self, inside⟩
    | cons next pieces =>
      rw [join_cons_cons, List.mem_append, List.mem_append] at inside
      rcases inside with (hc | hc) | hc
      · exact Or.inr ⟨piece, List.mem_cons_self, hc⟩
      · exact Or.inl hc
      · rcases ih hc with hc | ⟨other, hother, hc⟩
        · exact Or.inl hc
        · exact Or.inr ⟨other, List.mem_cons_of_mem piece hother, hc⟩

end HandHistory.Text
