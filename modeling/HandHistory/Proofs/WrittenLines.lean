import HandHistory.Proofs.Written
import HandHistory.Room

/-!
# Reading written lines

Most lines of a hand are led by a name and a verb. `BodyLine.ofText` looks for a
dozen needles in them, each a space and a word; what a line is read as is settled by
which words it holds. Behind the name, `cut?_told` is the one reason for a needle not
to be found: no word of the line begins with its word.

The text at the head is a parameter. The needles that are tried up to the verb must
not stand in it, nor may it begin like a line of another kind: it is `Clear`. A name
that is one word is clear of all of them.
-/

namespace HandHistory.Written

open Text

/-! ## Lines led by a player -/

/-- The words that follow the name at the head of a line. -/
def verbs : List Text :=
  ["posts".toList, "folds".toList, "checks".toList, "bets".toList, "calls".toList,
   "raises".toList, "collected".toList, "wins".toList]

/-- A needle that begins with a space and a word. -/
def IsSought (needle : Text) : Prop :=
  needle.head? = some ' ' ∧ (firstWord needle).head?.any Char.isAlpha = true

instance (needle : Text) : Decidable (IsSought needle) := inferInstanceAs (Decidable (_ ∧ _))

/-- The needles of posts, which are looked for before those of winners and actions. -/
def postNeedles : List Text :=
  [" posts ante".toList, " posts the ante".toList, " posts ".toList]

/-- The needles of the lines behind the seats, in the order in which they are tried. -/
def needles : List Text :=
  postNeedles ++ (BodyLine.winnerWords ++ BodyLine.actionWords.map Prod.fst)

/-- The beginnings of lines that are told apart by how they begin. -/
def beginnings : List Text := ["*** ".toList, "Dealt to ".toList]

/-- A text in which nothing is found that a line is tried for, if it leads one. The space
that parts it from the verb counts in. -/
structure Clear (tried : List Text) (lead : Text) : Prop where
  begins : ∀ key ∈ beginnings, hasStart key (lead ++ " ") = false
  holds : ∀ needle ∈ tried, has needle (lead ++ " ") = false

instance (tried : List Text) (lead : Text) : Decidable (Clear tried lead) :=
  decidable_of_iff ((∀ key ∈ beginnings, hasStart key (lead ++ " ") = false) ∧
    ∀ needle ∈ tried, has needle (lead ++ " ") = false)
    ⟨fun both => ⟨both.1, both.2⟩, fun clear => ⟨clear.begins, clear.holds⟩⟩

section Led

variable {lead verb text : Text} {literals words tried : List Text} {seatsOpen : Bool}

/-- No verb goes on with what only begins in the text in front of it. -/
theorem exists_head_verb (hverb : verb ∈ verbs) : ∃ c rest, verb = c :: rest ∧
    (∀ key ∈ beginnings, c ∉ behindSpaces key) ∧
    ∀ needle ∈ needles, needle.head? = some ' ' ∧ c ∉ behindSpaces needle.tail := by
  have heads : ∀ verb ∈ verbs, verb.head?.any (fun c => !(['a', 't'].contains c)) = true := by decide
  have keys : ∀ key ∈ beginnings, (behindSpaces key).all ['a', 't'].contains = true := by decide
  have sought : ∀ needle ∈ needles, needle.head? = some ' ' ∧
      (behindSpaces needle.tail).all ['a', 't'].contains = true := by decide
  cases verb with
  | nil => exact absurd hverb (by decide)
  | cons c rest =>
    have other : ¬ ['a', 't'].contains c = true := by simpa using heads _ hverb
    refine ⟨c, rest, rfl, fun key hkey inside => ?_, fun needle hneedle => ?_⟩
    · exact other (List.all_eq_true.1 (keys key hkey) c inside)
    · obtain ⟨begins, behind⟩ := sought needle hneedle
      exact ⟨begins, fun inside => other (List.all_eq_true.1 behind c inside)⟩

theorem hasStart_led (hverb : verb ∈ verbs) {key : Text} (hkey : key ∈ beginnings)
    (absent : hasStart key (lead ++ " ") = false) :
    hasStart key (lead ++ spaced (verb :: words)) = false := by
  obtain ⟨c, rest, rfl, other, -⟩ := exists_head_verb hverb
  exact hasStart_append_space (other key hkey) absent

/-- What is not found in the text at the head is found among the words, or nowhere. -/
theorem cut?_led (hverb : verb ∈ verbs) {needle : Text} (hneedle : needle ∈ needles)
    (absent : has needle (lead ++ " ") = false) :
    cut? needle (lead ++ spaced (verb :: words)) =
      (cut? needle (spaced (verb :: words))).map fun found => (lead ++ found.1, found.2) := by
  obtain ⟨c, rest, rfl, -, other⟩ := exists_head_verb hverb
  obtain ⟨begins, behind⟩ := other needle hneedle
  obtain ⟨key, rfl⟩ := List.head?_eq_some_iff.1 begins
  exact cut?_append_space behind absent

/-- Nothing is found in words of which none begins with the word that is looked for.
The words are literal ones and chips. -/
theorem cut?_told {needle : Text} (sought : IsSought needle)
    (told : ∀ word ∈ words, word ∈ literals ∨ ∃ chips : Chips, word = chips.text)
    (foreign : ∀ word ∈ literals, ' ' ∉ word ∧ stripStart? (firstWord needle) word = none) :
    cut? needle (spaced words) = none := by
  refine cut?_spaced_eq_none sought.1 ?_ ?_
  · intro word hword
    rcases told word hword with literal | ⟨chips, rfl⟩
    · exact (foreign word literal).1
    · exact chips.space_not_mem
  · intro word hword
    rcases told word hword with literal | ⟨chips, rfl⟩
    · exact (foreign word literal).2
    · exact chips.stripStart?_text sought.2

/-- A line led by a clear text and a verb is neither blank nor a summary, a seat, a marker
or a deal. -/
theorem ofText_led (hverb : verb ∈ verbs) (starts : Starts lead)
    (begins : ∀ key ∈ beginnings, hasStart key (lead ++ " ") = false)
    (led : text = lead ++ spaced (verb :: words)) (ends : Ends text)
    (noSeat : seatsOpen = false ∨ hasStart "Seat " text = false) {line : BodyLine}
    (read : (if has " posts ante" text || has " posts the ante" text then .ante text
      else if has " posts " text then .blind
      else (BodyLine.ofWinner? text).getD (BodyLine.ofAction text)) = line) :
    BodyLine.ofText seatsOpen text = line := by
  have solid : Starts text := led ▸ starts.append _
  have noMarker : hasStart "*** " text = false :=
    led ▸ hasStart_led hverb (by decide) (begins _ (by decide))
  have noDeal : stripStart? "Dealt to " text = none := by
    have := led ▸ @hasStart_led lead verb words hverb "Dealt to " (by decide) (begins _ (by decide))
    rwa [hasStart, Option.isSome_eq_false_iff, Option.isNone_iff_eq_none] at this
  have noSummary : hasStart "*** SUMMARY ***" text = false := by
    cases summary : hasStart "*** SUMMARY ***" text with
    | false => rfl
    | true =>
      obtain ⟨rest, found⟩ := Option.isSome_iff_exists.1 summary
      have marker : text = "*** ".toList ++ ("SUMMARY ***".toList ++ rest) := by
        rw [stripStart?_eq_some_iff.1 found]
        rfl
      rw [marker, hasStart, stripStart?_append] at noMarker
      cases noMarker
  have opened : BodyLine.ofOpenText text = line := by
    rw [BodyLine.ofOpenText, noMarker, noDeal, if_neg Bool.false_ne_true]
    exact read
  rw [BodyLine.ofText, trimLine_eq_self solid ends]
  simp only [List.isEmpty_iff, solid.ne_nil, if_false, noSummary, Bool.false_eq_true]
  split
  · next rest seat =>
    rcases noSeat with rfl | noSeat
    · exact opened
    · rw [hasStart, seat] at noSeat
      cases noSeat
  · exact opened

/-- A line in which nobody posts is read as a winner's line or an action. -/
theorem ofText_of_noPost (hverb : verb ∈ verbs) (starts : Starts lead) (clear : Clear tried lead)
    (posts : ∀ needle ∈ postNeedles, needle ∈ tried)
    (led : text = lead ++ spaced (verb :: words)) (ends : Ends text)
    (noSeat : seatsOpen = false ∨ hasStart "Seat " text = false)
    (told : ∀ word ∈ verb :: words, word ∈ literals ∨ ∃ chips : Chips, word = chips.text)
    (foreign : ∀ word ∈ literals, ' ' ∉ word ∧ stripStart? "posts" word = none) :
    BodyLine.ofText seatsOpen text = (BodyLine.ofWinner? text).getD (BodyLine.ofAction text) := by
  have table : ∀ needle ∈ postNeedles, IsSought needle ∧ firstWord needle = "posts".toList ∧
      needle ∈ needles := by
    decide
  have absent : ∀ needle ∈ postNeedles, has needle text = false := by
    intro needle hneedle
    obtain ⟨sought, post, inside⟩ := table needle hneedle
    rw [has, led, cut?_led hverb inside (clear.holds needle (posts needle hneedle)),
      cut?_told sought told (post ▸ foreign)]
    rfl
  refine ofText_led hverb starts clear.begins led ends noSeat ?_
  rw [absent _ (by decide), absent _ (by decide), absent _ (by decide)]
  rfl

end Led

/-! ## Names at the head of a line -/

section Named

variable {name : Name} {colon : Bool} {verb : Text} {words : List Text}

/-- No verb makes a line with a name in front the beginning of something else. -/
theorem stripStart?_led (hverb : verb ∈ verbs) {key : Text} (solid : ' ' ∉ key) {c : Char}
    (noVerb : ∀ verb ∈ verbs, verb.head? ≠ some c) (more : Text) :
    stripStart? (key ++ ' ' :: c :: more) (name.lead colon ++ spaced (verb :: words)) = none := by
  have first : ∀ text, stripStart? (c :: more) (verb ++ text) = none := by
    intro text
    cases verb with
    | nil => exact absurd hverb (by decide)
    | cons d verb =>
      have different : c ≠ d := by
        rintro rfl
        exact noVerb _ hverb rfl
      simp [stripStart?, different]
  rw [spaced, stripStart?_first solid Name.space_not_mem_lead, first]
  simp

/-- A name is one word, and so no needle is found in it. -/
theorem Name.clear_lead {tried : List Text} (sought : ∀ needle ∈ tried, needle ∈ needles) :
    Clear tried (name.lead colon) where
  begins := by
    intro key hkey
    simp only [beginnings, List.mem_cons, List.not_mem_nil, or_false] at hkey
    rcases hkey with rfl | rfl
    · have noStar : stripStart? "*** " (name.text ++ ((if colon then [':'] else []) ++ " ")) = none :=
        @Name.stripStart?_text name '*' (by decide) "** " _
      rw [lead, leadOf, List.append_assoc]
      exact congrArg Option.isSome noStar
    · have oneWord := @stripStart?_first "Dealt".toList (name.lead colon) (by decide)
        space_not_mem_lead "to ".toList []
      have nowhere : stripStart? "Dealt to " (name.lead colon ++ " ") = none :=
        oneWord.trans (by split <;> rfl)
      exact congrArg Option.isSome nowhere
  holds := by
    intro needle hneedle
    have table : ∀ needle ∈ needles, needle.head? = some ' ' ∧ has needle " " = false := by decide
    obtain ⟨begins, absent⟩ := table needle (sought needle hneedle)
    obtain ⟨key, rfl⟩ := List.head?_eq_some_iff.1 begins
    exact (has_append space_not_mem_lead key " ").trans absent

theorem Name.not_hasStart_seat :
    hasStart "Seat " (name.lead colon ++ spaced (verb :: words)) = false := by
  have different : name.lead colon ≠ "Seat".toList :=
    lead_ne_of_colon_not_mem name.ne_seat (by decide)
  have step := @stripStart?_first "Seat".toList (name.lead colon) (by decide)
    space_not_mem_lead [] (verb ++ spaced words)
  rw [if_neg different] at step
  exact congrArg Option.isSome step

/-- A line led by a name and a verb is neither blank nor a summary, a seat, a marker or a
deal. -/
theorem Name.ofText_led {text : Text} {seatsOpen : Bool} (hverb : verb ∈ verbs)
    (led : text = name.lead colon ++ spaced (verb :: words)) (ends : Ends text)
    {line : BodyLine}
    (read : (if has " posts ante" text || has " posts the ante" text then .ante text
      else if has " posts " text then .blind
      else (BodyLine.ofWinner? text).getD (BodyLine.ofAction text)) = line) :
    BodyLine.ofText seatsOpen text = line :=
  Written.ofText_led hverb name.starts_lead
    (Name.clear_lead fun _ inside => absurd inside List.not_mem_nil).begins led ends
    (Or.inr (led ▸ Name.not_hasStart_seat)) read

/-- A search behind the name finds the words that come first. -/
theorem cut?_led_first (key rest : Text) :
    cut? (' ' :: key) (name.lead colon ++ (' ' :: key ++ rest)) = some (name.lead colon, rest) :=
  cut?_of_not_mem Name.space_not_mem_lead key rest

/-- No line led by a name and a verb is the first one of a hand. -/
theorem isHandStart_led (hverb : verb ∈ verbs) (room : Room) :
    room.isHandStart (name.lead colon ++ spaced (verb :: words)) = false := by
  have other : ∀ (key more : Text) (c : Char), ' ' ∉ key →
      (∀ verb ∈ verbs, verb.head? ≠ some c) → hasStart (key ++ ' ' :: c :: more)
        (name.lead colon ++ spaced (verb :: words)) = false := by
    intro key more c solid noVerb
    rw [hasStart, stripStart?_led hverb solid noVerb]
    rfl
  cases room with
  | winamax => exact other "Winamax" "oker - " 'P' (by decide) (by decide)
  | pokerStars =>
    apply List.any_eq_false.2
    intro start hstart
    simp only [PokerStars.handStarts, List.mem_cons, List.not_mem_nil, or_false] at hstart
    rw [Bool.not_eq_true]
    rcases hstart with rfl | rfl | rfl
    · exact other "PokerStars" "and #" 'H' (by decide) (by decide)
    · exact other "PokerStars" "ame #" 'G' (by decide) (by decide)
    · exact other "PokerStars" "oom Hand #" 'Z' (by decide) (by decide)

end Named

/-! ## What players do -/

/-- What a player does, and whether it takes the last of the chips. -/
inductive Deed where
  | folds
  | checks
  | bets (chips : Chips) (allIn : Bool)
  | calls (chips : Chips) (allIn : Bool)
  | raises (more total : Chips) (allIn : Bool)

/-- The verb by which an action of a kind is told. -/
def verbOf : ActionKind → Text
  | .silent => []
  | .fold => "folds"
  | .check => "checks"
  | .bet => "bets"
  | .call => "calls"
  | .raise => "raises"

/-- The needle by which an action of a kind is found: the verb between spaces, of which
the second one is only there in front of an amount. -/
def needleOf (kind : ActionKind) : Text :=
  ' ' :: (verbOf kind ++ if kind.hasAmount then [' '] else [])

namespace Deed

def kind : Deed → ActionKind
  | folds => .fold
  | checks => .check
  | bets .. => .bet
  | calls .. => .call
  | raises .. => .raise

/-- The amount of an action: of a raise, what it raises to. -/
def amount : Deed → Float
  | folds | checks => 0
  | bets chips _ | calls chips _ => chips.value
  | raises _ total _ => total.value

def verb (deed : Deed) : Text := verbOf deed.kind

/-- The words behind the verb. -/
def words : Deed → List Text
  | folds | checks => []
  | bets chips _ | calls chips _ => [chips.text]
  | raises more total _ => [more.text, "to", total.text]

def isAllIn : Deed → Bool
  | folds | checks => false
  | bets _ allIn | calls _ allIn | raises _ _ allIn => allIn

/-- The remark behind the words of a deed. -/
def remark (deed : Deed) : List Text :=
  if deed.isAllIn then ["and".toList, "is".toList, "all-in".toList] else []

variable {deed : Deed} {lead : Text} {name : Name} {colon : Bool} {seatsOpen : Bool}

/-- The line without the remark behind it, with some text in front of the verb. -/
def lineOf (lead : Text) (deed : Deed) : Text := lead ++ spaced (deed.verb :: deed.words)

/-- The whole line, with some text in front of the verb. -/
def textOf (lead : Text) (deed : Deed) : Text :=
  lead ++ spaced (deed.verb :: (deed.words ++ deed.remark))

/-- What the player does, without the remark behind it. -/
def line (name : Name) (colon : Bool) (deed : Deed) : Text := deed.lineOf (name.lead colon)

/-- The whole line. -/
def text (name : Name) (colon : Bool) (deed : Deed) : Text := deed.textOf (name.lead colon)

/-- The words that are tried in front of those of a deed. -/
def wordsBefore (deed : Deed) : List (Text × ActionKind) :=
  BodyLine.actionWords.takeWhile fun word => word.1 ≠ needleOf deed.kind

/-- The needles that are tried up to that of a deed. -/
def tried (deed : Deed) : List Text :=
  postNeedles ++ (BodyLine.winnerWords ++
    (deed.wordsBefore.map Prod.fst ++ [needleOf deed.kind]))

theorem kind_ne_silent (deed : Deed) : deed.kind ≠ .silent := by
  cases deed <;> simp [kind]

theorem actionWords_eq (deed : Deed) : ∃ after, BodyLine.actionWords =
    deed.wordsBefore ++ (needleOf deed.kind, deed.kind) :: after := by
  cases deed <;> exact ⟨_, rfl⟩

theorem mem_needles_of_mem_tried {needle : Text} (inside : needle ∈ deed.tried) :
    needle ∈ needles := by
  obtain ⟨after, whole⟩ := deed.actionWords_eq
  have split : needles = deed.tried ++ after.map Prod.fst := by
    simp [needles, tried, whole]
  exact split ▸ List.mem_append_left _ inside

theorem textOf_eq : deed.textOf lead = deed.lineOf lead ++ spaced deed.remark := by
  rw [textOf, lineOf, List.append_assoc, ← spaced_append, List.cons_append]

theorem verb_mem (deed : Deed) : deed.verb ∈ verbs := by
  have table : ∀ kind, kind ≠ .silent → verbOf kind ∈ verbs := by
    intro kind
    cases kind <;> decide
  exact table deed.kind deed.kind_ne_silent

/-- Each of the words is the verb, `to` or chips, whatever words are behind them. -/
theorem told (behind : List Text) : ∀ word ∈ deed.verb :: (deed.words ++ behind),
    word ∈ deed.verb :: "to".toList :: behind ∨ ∃ chips : Chips, word = chips.text := by
  intro word hword
  rcases List.mem_cons.1 hword with rfl | hword
  · exact Or.inl List.mem_cons_self
  · rcases List.mem_append.1 hword with hword | hword
    · cases deed with
      | folds | checks => cases hword
      | bets chips allIn | calls chips allIn => exact Or.inr ⟨chips, List.mem_singleton.1 hword⟩
      | raises more total allIn =>
        simp only [words, List.mem_cons, List.not_mem_nil, or_false] at hword
        rcases hword with h | h | h
        · exact Or.inr ⟨more, h⟩
        · exact Or.inl (h ▸ List.mem_cons_of_mem _ List.mem_cons_self)
        · exact Or.inr ⟨total, h⟩
    · exact Or.inl (List.mem_cons_of_mem _ (List.mem_cons_of_mem _ hword))

/-- The literal words of a whole line. -/
def literals (deed : Deed) : List Text :=
  [verbOf deed.kind, "to".toList, "and".toList, "is".toList, "all-in".toList]

theorem told_remark : ∀ word ∈ deed.verb :: (deed.words ++ deed.remark),
    word ∈ deed.literals ∨ ∃ chips : Chips, word = chips.text := by
  intro word hword
  refine (deed.told deed.remark word hword).imp (fun literal => ?_) id
  rw [remark] at literal
  split at literal
  · exact literal
  · exact List.mem_append_left ["and".toList, "is".toList, "all-in".toList] literal

/-- The line ends with a character that is no blank and does not end `all-in`. -/
theorem exists_last (deed : Deed) (lead : Text) : ∃ front c,
    deed.lineOf lead = front ++ [c] ∧ isLineBlank c = false ∧ c ≠ 'n' := by
  have paid : ∀ (first : List Text) (chips : Chips), ∃ front c,
      lead ++ spaced (first ++ [chips.text]) = front ++ [c] ∧ isLineBlank c = false ∧
        c ≠ 'n' := by
    intro first chips
    obtain ⟨front, c, same, solid, other⟩ := chips.exists_last
    refine ⟨lead ++ (spaced first ++ ' ' :: front), c, ?_, solid, other⟩
    simp [spaced_append, spaced, same]
  cases deed with
  | folds => exact ⟨lead ++ " fold", 's', by simp [lineOf]; rfl, by decide, by decide⟩
  | checks => exact ⟨lead ++ " check", 's', by simp [lineOf]; rfl, by decide, by decide⟩
  | bets chips allIn => exact paid ["bets".toList] chips
  | calls chips allIn => exact paid ["calls".toList] chips
  | raises more total allIn => exact paid ["raises".toList, more.text, "to".toList] total

theorem spaced_remark :
    spaced deed.remark = if deed.isAllIn then " and is all-in".toList else [] := by
  rw [remark]
  split <;> rfl

theorem withoutAllIn_textOf : BodyLine.withoutAllIn (deed.textOf lead) = deed.lineOf lead := by
  rw [textOf_eq, spaced_remark]
  rw [BodyLine.withoutAllIn, BodyLine.allInEnds]
  split
  · have stripped := stripEnd?_append (deed.lineOf lead) " and is all-in"
    simp only [List.findSome?_cons, stripped, Option.getD_some]
  · obtain ⟨front, c, same, -, other⟩ := deed.exists_last lead
    have lower : stripEnd? " and is all-in" (front ++ [c]) = none :=
      @stripEnd?_eq_none front " and is all-i" c 'n' fun h => other h.symm
    have upper : stripEnd? " and is all-In" (front ++ [c]) = none :=
      @stripEnd?_eq_none front " and is all-I" c 'n' fun h => other h.symm
    simp only [same, List.append_nil, List.findSome?_cons, List.findSome?_nil, lower, upper,
      Option.getD_none]

theorem ends_textOf : Ends (deed.textOf lead) := by
  rw [textOf_eq, spaced_remark]
  split
  · exact Ends.append ⟨" and is all-i", 'n', rfl, by decide⟩ _
  · obtain ⟨front, c, same, solid, -⟩ := deed.exists_last lead
    rw [List.append_nil]
    exact ⟨front, c, same, solid⟩

/-- The words of a line with a space at its end, in which actions are looked for. -/
def padded (deed : Deed) : List Text := deed.verb :: (deed.words ++ [[]])

theorem padded_eq : deed.lineOf lead ++ " ".toList = lead ++ spaced deed.padded := by
  rw [lineOf, padded, List.append_assoc, ← List.cons_append, spaced_append]
  rfl

/-- The needle of a deed is found at once, and the amount behind it. -/
theorem cut?_needleOf : ∃ tail, cut? (needleOf deed.kind) (spaced deed.padded) = some ([], tail) ∧
    (deed.kind.hasAmount = true → (Amount.last tail).value = deed.amount) := by
  have found : ∀ rest, deed.verb ++ spaced (deed.words ++ [[]]) =
      (deed.verb ++ if deed.kind.hasAmount then [' '] else []) ++ rest →
      cut? (needleOf deed.kind) (spaced deed.padded) = some ([], rest) := by
    intro rest same
    have here : spaced deed.padded = needleOf deed.kind ++ rest := congrArg (' ' :: ·) same
    rw [here, needleOf, List.cons_append, cut?]
    simp only [stripStart?, if_true, stripStart?_append]
  have alone : ∀ chips : Chips, (Amount.last (chips.text ++ " ")).value = chips.value := by
    intro chips
    refine @Chips.last_of_words chips _ [] ?_
    exact (words_append chips.text []).trans (congrArg (· ++ []) chips.words_text)
  cases deed with
  | folds => exact ⟨" ", found " " rfl, by decide⟩
  | checks => exact ⟨" ", found " " rfl, by decide⟩
  | bets chips allIn =>
    exact ⟨chips.text ++ " ", found _ (by simp [words, spaced, kind, ActionKind.hasAmount]),
      fun _ => alone chips⟩
  | calls chips allIn =>
    exact ⟨chips.text ++ " ", found _ (by simp [words, spaced, kind, ActionKind.hasAmount]),
      fun _ => alone chips⟩
  | raises more total allIn =>
    refine ⟨more.text ++ (" to ".toList ++ (total.text ++ " ".toList)),
      found _ (by simp [words, spaced, kind, ActionKind.hasAmount]), fun _ => ?_⟩
    refine @Chips.last_of_words total _ [more.text, "to".toList] ?_
    have last : Text.words (total.text ++ ' ' :: []) = [total.text] :=
      (words_append total.text []).trans (congrArg (· ++ []) total.words_text)
    show Text.words (more.text ++ ' ' :: ("to".toList ++ ' ' :: (total.text ++ ' ' :: []))) = _
    rw [words_append, words_append, last, more.words_text]
    rfl

/-- No other needle of an action is found among the words. -/
theorem cut?_other {word : Text × ActionKind} (hword : word ∈ BodyLine.actionWords)
    (other : word.1 ≠ needleOf deed.kind) : cut? word.1 (spaced deed.padded) = none := by
  have table : ∀ kind, kind ≠ .silent → ∀ word ∈ BodyLine.actionWords, word.1 ≠ needleOf kind →
      IsSought word.1 ∧ ∀ literal ∈ [verbOf kind, "to".toList, []],
        ' ' ∉ literal ∧ stripStart? (firstWord word.1) literal = none := by
    intro kind
    cases kind <;> decide
  obtain ⟨sought, foreign⟩ := table deed.kind deed.kind_ne_silent word hword other
  exact cut?_told sought (deed.told [[]]) foreign

/-- No needle of a post or a winner is found among the words. -/
theorem cut?_foreign {needle : Text} (hneedle : needle ∈ " posts ".toList :: BodyLine.winnerWords) :
    cut? needle (spaced (deed.verb :: (deed.words ++ deed.remark))) = none := by
  have table : ∀ kind, ∀ needle ∈ " posts ".toList :: BodyLine.winnerWords, IsSought needle ∧
      ∀ literal ∈ [verbOf kind, "to".toList, "and".toList, "is".toList, "all-in".toList],
        ' ' ∉ literal ∧ stripStart? (firstWord needle) literal = none := by
    intro kind
    cases kind <;> decide
  obtain ⟨sought, foreign⟩ := table deed.kind needle hneedle
  exact cut?_told sought deed.told_remark foreign

/-- What is read of a deed: its kind, the player, and the words with the amount. -/
theorem ofAction_textOf (clear : Clear deed.tried lead) : ∃ tail,
    BodyLine.ofAction (deed.textOf lead) =
      .action deed.kind (BodyLine.actorName lead) tail (deed.lineOf lead) ∧
      (deed.kind.hasAmount = true → (Amount.last tail).value = deed.amount) := by
  obtain ⟨tail, found, amount⟩ := @cut?_needleOf deed
  refine ⟨tail, ?_, amount⟩
  have led : ∀ needle ∈ deed.wordsBefore.map Prod.fst ++ [needleOf deed.kind],
      cut? needle (deed.lineOf lead ++ " ") = (cut? needle (spaced deed.padded)).map
        fun found => (lead ++ found.1, found.2) := by
    intro needle hneedle
    have inside : needle ∈ deed.tried :=
      List.mem_append_right _ (List.mem_append_right _ hneedle)
    rw [padded_eq]
    exact cut?_led deed.verb_mem (mem_needles_of_mem_tried inside) (clear.holds needle inside)
  obtain ⟨after, whole⟩ := deed.actionWords_eq
  have first : ∀ search : Text × ActionKind → Option (ActionKind × Text × Text),
      (∀ word, search word =
        (cut? word.1 (deed.lineOf lead ++ " ")).map fun found => (word.2, found)) →
      BodyLine.actionWords.findSome? search = some (deed.kind, lead, tail) := by
    intro search searches
    rw [List.findSome?_eq_some_iff]
    refine ⟨deed.wordsBefore, (needleOf deed.kind, deed.kind), after, whole, ?_, ?_⟩
    · have own := led (needleOf deed.kind) (List.mem_append_right _ List.mem_cons_self)
      simp only [searches, own, found, Option.map_some, List.append_nil]
    · intro word hword
      have other : word.1 ≠ needleOf deed.kind := by
        simpa using List.mem_takeWhile_imp hword
      have nowhere := led word.1 (List.mem_append_left _ (List.mem_map_of_mem hword))
      rw [cut?_other (whole ▸ List.mem_append_left _ hword) other] at nowhere
      simp only [searches, nowhere, Option.map_none]
  rw [BodyLine.ofAction, withoutAllIn_textOf]
  dsimp only
  rw [first]
  exact fun _ => rfl

/-- A line about a deed is read as that deed, if the text in front of it is clear. -/
theorem ofText_textOf (starts : Starts lead) (clear : Clear deed.tried lead)
    (noSeat : seatsOpen = false ∨ hasStart "Seat " (deed.textOf lead) = false) : ∃ tail,
    BodyLine.ofText seatsOpen (deed.textOf lead) =
      .action deed.kind (BodyLine.actorName lead) tail (deed.lineOf lead) ∧
      (deed.kind.hasAmount = true → (Amount.last tail).value = deed.amount) := by
  obtain ⟨tail, read, amount⟩ := ofAction_textOf clear
  have noWinner : BodyLine.ofWinner? (deed.textOf lead) = none := by
    have absent : ∀ needle ∈ BodyLine.winnerWords, cut? needle (deed.textOf lead) = none := by
      intro needle hneedle
      have inside : needle ∈ deed.tried :=
        List.mem_append_right _ (List.mem_append_left _ hneedle)
      rw [textOf, cut?_led deed.verb_mem (mem_needles_of_mem_tried inside)
        (clear.holds needle inside), cut?_foreign (List.mem_cons_of_mem _ hneedle)]
      rfl
    rw [BodyLine.ofWinner?, List.findSome?_eq_none_iff.2 absent]
    rfl
  have foreign : ∀ literal ∈ deed.literals,
      ' ' ∉ literal ∧ stripStart? "posts" literal = none := by
    have table : ∀ kind, ∀ literal ∈ [verbOf kind, "to".toList, "and".toList, "is".toList,
        "all-in".toList], ' ' ∉ literal ∧ stripStart? "posts" literal = none := by
      intro kind
      cases kind <;> decide
    exact table deed.kind
  have noPost := ofText_of_noPost deed.verb_mem starts clear
    (fun needle hneedle => List.mem_append_left _ hneedle) (rfl : deed.textOf lead = _)
    ends_textOf noSeat deed.told_remark foreign
  refine ⟨tail, ?_, amount⟩
  rw [noPost, noWinner, read]
  rfl

/-- A line about a deed of a player is read as that deed. -/
theorem ofText_text (seatsOpen : Bool) : ∃ tail, BodyLine.ofText seatsOpen (deed.text name colon) =
      .action deed.kind name.text tail (deed.line name colon) ∧
      (deed.kind.hasAmount = true → (Amount.last tail).value = deed.amount) := by
  have read := @ofText_textOf deed (name.lead colon) seatsOpen Name.starts_lead
    (Name.clear_lead fun _ inside => mem_needles_of_mem_tried inside)
    (Or.inr Name.not_hasStart_seat)
  rwa [Name.actorName_lead] at read

end Deed

/-! ## Blinds, antes and winners -/

section Posts

variable (name : Name) (chips : Chips)

def blindText : Text :=
  name.text ++ spaced ["posts".toList, "small".toList, "blind".toList, chips.text]

def anteText : Text := name.text ++ spaced ["posts".toList, "ante".toList, chips.text]

def collectedText : Text :=
  name.text ++ spaced ["collected".toList, chips.text, "from".toList, "pot".toList]

def winsText : Text := name.text ++ spaced ["wins".toList, chips.text]

variable {name chips}

theorem ends_spaced_chips (front : Text) : Ends (front ++ ' ' :: chips.text) := by
  obtain ⟨lead, c, same, solid, -⟩ := chips.exists_last
  exact ⟨front ++ ' ' :: lead, c, by simp [same], solid⟩

/-- A blind is read as one, which is to say that nothing is kept of it. -/
theorem ofText_blind (seatsOpen : Bool) :
    BodyLine.ofText seatsOpen (blindText name chips) = .blind := by
  have led : blindText name chips = name.lead false ++ spaced
      ["posts".toList, "small".toList, "blind".toList, chips.text] := by
    rw [blindText, Name.lead_false]
  have ends : Ends (blindText name chips) := by
    have last := @ends_spaced_chips chips (name.text ++ " posts small blind")
    simpa [blindText, spaced] using last
  have told : ∀ word ∈ ["small".toList, "blind".toList, chips.text],
      word ∈ ["small".toList, "blind".toList] ∨ ∃ chips : Chips, word = chips.text := by
    intro word hword
    simp only [List.mem_cons, List.not_mem_nil, or_false] at hword ⊢
    rcases hword with h | h | h
    · exact Or.inl (Or.inl h)
    · exact Or.inl (Or.inr h)
    · exact Or.inr ⟨chips, h⟩
  -- only the verb itself begins with `posts`, and no ante is behind it
  have anteless : ∀ more, IsSought (' ' :: ("posts ".toList ++ more)) →
      firstWord (' ' :: ("posts ".toList ++ more)) = "posts".toList →
      stripStart? more ("small".toList ++ spaced ["blind".toList, chips.text]) = none →
      cut? (' ' :: ("posts ".toList ++ more)) (blindText name chips) = none := by
    intro more sought post other
    have further := cut?_told sought told (by rw [post]; decide)
    have nowhere : cut? (' ' :: ("posts ".toList ++ more))
        (spaced ["posts".toList, "small".toList, "blind".toList, chips.text]) = none :=
      cut?_spaced_cons (by decide) other further
    rw [led, cut?_append Name.space_not_mem_lead, nowhere]
    rfl
  have ante : has " posts ante" (blindText name chips) = false :=
    congrArg Option.isSome (anteless "ante" (by decide) (by decide) rfl)
  have theAnte : has " posts the ante" (blindText name chips) = false :=
    congrArg Option.isSome (anteless "the ante" (by decide) (by decide) rfl)
  have blind : has " posts " (blindText name chips) = true := by
    have found := @cut?_led_first name false "posts ".toList
      ("small".toList ++ spaced ["blind".toList, chips.text])
    exact (congrArg (fun text => (cut? " posts " text).isSome) led).trans
      (congrArg Option.isSome found)
  refine Name.ofText_led (by decide) led ends ?_
  rw [ante, theAnte, blind]
  rfl

/-- An ante is read with its line, of which the last word is the amount. -/
theorem ofText_ante (seatsOpen : Bool) :
    BodyLine.ofText seatsOpen (anteText name chips) = .ante (anteText name chips) ∧
      (Amount.last (anteText name chips)).value = chips.value := by
  have led : anteText name chips = name.lead false ++ spaced
      ["posts".toList, "ante".toList, chips.text] := by
    rw [anteText, Name.lead_false]
  have last : anteText name chips = (name.text ++ " posts ante") ++ ' ' :: chips.text := by
    simp [anteText, spaced]
  have ante : has " posts ante" (anteText name chips) = true := by
    have found := @cut?_led_first name false "posts ante".toList (spaced [chips.text])
    exact (congrArg (fun text => (cut? " posts ante" text).isSome) led).trans
      (congrArg Option.isSome found)
  constructor
  · refine Name.ofText_led (by decide) led (last ▸ ends_spaced_chips _) ?_
    rw [ante]
    rfl
  · refine @Chips.last_of_words chips _ (Text.words (name.text ++ " posts ante")) ?_
    rw [last, words_append, chips.words_text]

/-- The needle by which a winner is found. -/
def winnerNeedle (verb : Text) : Text := ' ' :: (verb ++ " ")

/-- The needles that are tried up to that of a winner. -/
def winnerTried (verb : Text) : List Text :=
  postNeedles ++ (BodyLine.winnerWords.takeWhile (· ≠ winnerNeedle verb) ++ [winnerNeedle verb])

/-- A line with a winner's verb and an amount is read as the winner's, if the text in
front of the verb is clear. -/
theorem ofText_winner {verb lead text : Text} {seatsOpen : Bool}
    (hverb : verb = "collected".toList ∨ verb = "wins".toList) (starts : Starts lead)
    (clear : Clear (winnerTried verb) lead)
    {behind : List Text} (literal : ∀ word ∈ behind, word ∈ ["from".toList, "pot".toList])
    (led : text = lead ++ spaced (verb :: chips.text :: behind)) (ends : Ends text)
    (noSeat : seatsOpen = false ∨ hasStart "Seat " text = false) :
    BodyLine.ofText seatsOpen text = .winner (BodyLine.actorName lead) text := by
  have told : ∀ word ∈ verb :: chips.text :: behind,
      word ∈ [verb, "from".toList, "pot".toList] ∨ ∃ chips : Chips, word = chips.text := by
    intro word hword
    rcases List.mem_cons.1 hword with rfl | hword
    · exact Or.inl List.mem_cons_self
    · rcases List.mem_cons.1 hword with rfl | hword
      · exact Or.inr ⟨chips, rfl⟩
      · exact Or.inl (List.mem_cons_of_mem _ (literal word hword))
  have known : verb ∈ verbs ∧ (∀ needle ∈ winnerTried verb, needle ∈ needles) ∧
      (∀ word ∈ [verb, "from".toList, "pot".toList],
        ' ' ∉ word ∧ stripStart? "posts" word = none) := by
    rcases hverb with rfl | rfl <;> decide
  obtain ⟨isVerb, inside, foreign⟩ := known
  have found : cut? (winnerNeedle verb) text = some (lead, chips.text ++ spaced behind) := by
    have own : winnerNeedle verb ∈ winnerTried verb :=
      List.mem_append_right _ (List.mem_append_right _ List.mem_cons_self)
    have here : cut? (winnerNeedle verb) (spaced (verb :: chips.text :: behind)) =
        some ([], chips.text ++ spaced behind) := by
      have first : spaced (verb :: chips.text :: behind) =
          winnerNeedle verb ++ (chips.text ++ spaced behind) := by simp [winnerNeedle, spaced]
      rw [first, winnerNeedle, List.cons_append, cut?]
      simp only [stripStart?, if_true, stripStart?_append]
    rw [led, cut?_led isVerb (inside _ own) (clear.holds _ own), here, Option.map_some,
      List.append_nil]
  have winner : BodyLine.ofWinner? text = some (.winner (BodyLine.actorName lead) text) := by
    have first : BodyLine.winnerWords.findSome? (fun words => cut? words text) =
        some (lead, chips.text ++ spaced behind) := by
      rcases hverb with rfl | rfl
      · rw [BodyLine.winnerWords, List.findSome?_cons, show cut? " collected " text = _ from found]
      · have absent : cut? " collected " text = none := by
          rw [led, cut?_led isVerb (by decide) (clear.holds _ (by decide)),
            cut?_told (by decide) told (by decide)]
          rfl
        rw [BodyLine.winnerWords, List.findSome?_cons, absent, List.findSome?_cons,
          show cut? " wins " text = _ from found]
    simp only [BodyLine.ofWinner?, first, Option.map_some]
  rw [ofText_of_noPost isVerb starts clear (fun _ hneedle => List.mem_append_left _ hneedle) led
    ends noSeat told foreign, winner]
  rfl

/-- What a winner collects, behind some text. -/
def collectedOf (lead : Text) (chips : Chips) : Text :=
  lead ++ spaced ["collected".toList, chips.text, "from".toList, "pot".toList]

theorem ends_collectedOf {lead : Text} : Ends (collectedOf lead chips) := by
  have last : collectedOf lead chips =
      (lead ++ (" collected " ++ (chips.text ++ " from po"))) ++ ['t'] := by
    simp [collectedOf, spaced]
  exact ⟨_, 't', last, by decide⟩

theorem ofText_collected (seatsOpen : Bool) :
    BodyLine.ofText seatsOpen (collectedText name chips) =
      .winner name.text (collectedText name chips) := by
  have led : collectedText name chips = collectedOf (name.lead false) chips := by
    rw [collectedText, Name.lead_false]
    rfl
  have read := @ofText_winner chips _ _ _ seatsOpen (Or.inl rfl) name.starts_lead
    (Name.clear_lead (by decide)) _ (fun _ inside => inside) led (led ▸ ends_collectedOf)
    (Or.inr (led ▸ Name.not_hasStart_seat))
  rwa [Name.actorName_lead] at read

theorem ofText_wins (seatsOpen : Bool) :
    BodyLine.ofText seatsOpen (winsText name chips) = .winner name.text (winsText name chips) := by
  have led : winsText name chips = name.lead false ++ spaced ["wins".toList, chips.text] := by
    rw [winsText, Name.lead_false]
  have last : winsText name chips = (name.text ++ " wins") ++ ' ' :: chips.text := by
    simp [winsText, spaced]
  have read := @ofText_winner chips _ _ _ seatsOpen (Or.inr rfl) name.starts_lead
    (Name.clear_lead (by decide)) _ (fun _ inside => absurd inside List.not_mem_nil) led
    (last ▸ ends_spaced_chips _) (Or.inr (led ▸ Name.not_hasStart_seat))
  rwa [Name.actorName_lead] at read

end Posts

end HandHistory.Written
