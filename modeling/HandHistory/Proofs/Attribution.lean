import HandHistory.Proofs.Winners

/-!
# Whose line it is

A player who has a seat may have any trimmed name, and the lines about this player are
told apart by what they hold. So a line is the player's just if nothing of what it is
tried for before its own word stands in the name: `Written.Clear`. It is then read as
what it says; and a line that is not clear is never taken for one of this player.

The name of a seat line is cut in front of the chips, and that of another line in front
of the word that is found. Both are trimmed, but only the second loses its last colons,
and so no line is that of a player whose name ends with one.
-/

namespace HandHistory

open Text Written

/-! ## What a line with a player is not -/

namespace BodyLine

variable {text name : Text}

theorem length_actorName_le (front : Text) : (actorName front).length ≤ front.length :=
  (length_trimLine_le _).trans ((length_trimEndBy_le _ _).trans (length_trimLine_le front))

theorem actor?_ofMarker (line : Text) : (ofMarker line).actor? = none := by
  rw [ofMarker]
  split <;> [skip; split <;> [skip; split <;> [skip; split]]] <;> rfl

theorem actor?_ofDealt (rest : Text) : (ofDealt rest).actor? = none := by
  rw [ofDealt]
  split <;> rfl

/-- Who acts or wins is told only where nothing is found that is tried before. -/
theorem ofOpenText_of_actor? (told : (ofOpenText text).actor? = some name) :
    (∀ key ∈ beginnings, hasStart key text = false) ∧
      (∀ needle ∈ postNeedles, has needle text = false) ∧
      ofOpenText text = (ofWinner? text).getD (ofAction text) := by
  rw [ofOpenText] at told ⊢
  split at told
  · rw [actor?_ofMarker] at told
    cases told
  · next noMarker =>
    rw [if_neg noMarker]
    split at told
    · cases told
    · next noAnte =>
      rw [if_neg noAnte]
      split at told
      · cases told
      · next noBlind =>
        rw [if_neg noBlind]
        split at told
        · rw [actor?_ofDealt] at told
          cases told
        · next noDeal =>
          rw [Bool.or_eq_true, not_or] at noAnte
          simp only [Bool.not_eq_true] at noMarker noAnte noBlind
          have deal : hasStart "Dealt to " text = false := congrArg Option.isSome noDeal
          refine ⟨?_, ?_, rfl⟩
          · simp only [beginnings, List.forall_mem_cons]
            exact ⟨noMarker, deal, by simp⟩
          · simp only [postNeedles, List.forall_mem_cons]
            exact ⟨noAnte.1, noAnte.2, noBlind, by simp⟩

/-- Behind the seats, a line with a player is no summary either. -/
theorem ofText_eq_ofOpenText (starts : Starts text) (ends : Ends text)
    (told : (ofText false text).actor? = some name) : ofText false text = ofOpenText text := by
  rw [ofText, trimLine_eq_self starts ends] at told ⊢
  rw [if_neg (by simpa using starts.ne_nil)] at told ⊢
  split at told
  · cases told
  · next noSummary =>
    rw [if_neg noSummary]
    split <;> rfl

theorem exists_cut?_of_ofWinner? {line : BodyLine} (told : ofWinner? text = some line) :
    ∃ before word after front rest, winnerWords = before ++ word :: after ∧
      (∀ other ∈ before, cut? other text = none) ∧ cut? word text = some (front, rest) ∧
      line = .winner (actorName front) text := by
  obtain ⟨⟨front, rest⟩, found, rfl⟩ := Option.map_eq_some_iff.1 told
  obtain ⟨before, word, after, whole, here, others⟩ := List.findSome?_eq_some_iff.1 found
  exact ⟨before, word, after, front, rest, whole, others, here, rfl⟩

theorem winner?_ofAction (line : Text) : (ofAction line).winner? = none := by
  rw [ofAction]
  dsimp only
  split <;> rfl

theorem exists_cut?_of_ofAction (told : (ofAction text).actor? = some name) :
    ∃ before word after front rest, actionWords = before ++ word :: after ∧
      (∀ other ∈ before, cut? other.1 (withoutAllIn text ++ " ") = none) ∧
      cut? word.1 (withoutAllIn text ++ " ") = some (front, rest) ∧ actorName front = name := by
  rw [ofAction] at told
  dsimp only at told
  split at told
  · next kind front rest found =>
    obtain ⟨before, word, after, whole, here, others⟩ := List.findSome?_eq_some_iff.1 found
    obtain ⟨⟨earlier, later⟩, cut, same⟩ := Option.map_eq_some_iff.1 here
    cases same
    refine ⟨before, word, after, earlier, later, whole, fun other inside => ?_, cut,
      Option.some.inj told⟩
    exact Option.map_eq_none_iff.1 (others other inside)
  · cases told

/-- A seat line gives a place to a trimmed name. -/
theorem exists_seatedName_of_seating? {seatsOpen : Bool} {raw : Text} {place : Fin 10}
    (seated : (ofText seatsOpen raw).seating? = some (place, name)) :
    ∃ body, name = seatedName body := by
  have spoken : ∀ line, (ofOpenText line).seating? = none := fun line =>
    seating?_eq_none_of_isSpoken (isSpoken_ofOpenText line)
  have put : ∀ rest line, (ofSeat rest line).seating? = some (place, name) →
      ∃ body, name = seatedName body := by
    intro rest line told
    rw [ofSeat] at told
    split at told
    · next number body _ =>
      rw [seating?] at told
      split at told
      · cases told
      · obtain ⟨_, _, same⟩ := Option.map_eq_some_iff.1 told
        exact ⟨body, (congrArg Prod.snd same).symm⟩
    · cases told
  rw [ofText] at seated
  split at seated
  · cases seated
  · split at seated
    · cases seated
    · split at seated
      · split at seated
        · exact put _ _ seated
        · rw [spoken] at seated
          cases seated
      · rw [spoken] at seated
        cases seated

theorem exists_ofText_of_mem_said {seatsOpen : Bool} {lines : List Text} {line : BodyLine}
    (told : line ∈ said seatsOpen lines) : ∃ opened raw, line = ofText opened raw := by
  induction lines generalizing seatsOpen with
  | nil => cases told
  | cons raw lines ih =>
    by_cases summary : ofText seatsOpen raw = .summary
    · rw [said_of_summary summary] at told
      cases told
    · rw [said_cons summary] at told
      rcases List.mem_cons.1 told with rfl | later
      · exact ⟨seatsOpen, raw, rfl⟩
      · exact ih later

end BodyLine

/-! ## Clear names -/

namespace Written

variable {name : Text} {colon : Bool}

theorem leadOf_false : leadOf name false = name := List.append_nil name

theorem starts_leadOf (starts : Starts name) : Starts (leadOf name colon) := starts.append _

/-- A line that a name with a last colon leads is never told of that name. -/
theorem getLast?_of_actorName (starts : Starts name)
    (told : BodyLine.actorName (leadOf name colon) = name) : name.getLast? ≠ some ':' := by
  intro last
  obtain ⟨front, same⟩ := List.getLast?_eq_some_iff.1 last
  have ends : Ends (leadOf name colon) := by
    cases colon with
    | false => exact ⟨front, ':', by simp [leadOf, same], by decide⟩
    | true => exact ⟨name, ':', rfl, by decide⟩
  have stripped : trimEndBy (· == ':') (leadOf name colon) = trimEndBy (· == ':') front := by
    cases colon <;> simp [leadOf, same, trimEndBy]
  rw [BodyLine.actorName, trimLine_eq_self (starts_leadOf starts) ends, stripped] at told
  have short : name.length ≤ front.length :=
    told ▸ (length_trimLine_le _).trans (length_trimEndBy_le _ front)
  rw [same, List.length_append, List.length_singleton] at short
  omega

/-- A needle found behind a name is found behind its colon as well. -/
theorem length_leadOf_le {needle more front rest : Text} (begins : needle.head? = some ' ')
    (found : cut? needle (leadOf name colon ++ more) = some (front, rest))
    (long : name.length ≤ front.length) : (leadOf name colon).length ≤ front.length := by
  cases colon with
  | false => simpa [leadOf] using long
  | true =>
    obtain ⟨key, rfl⟩ := List.head?_eq_some_iff.1 begins
    have there := cut?_eq_some found
    by_contra short
    have same : name.length = front.length := by
      simp only [leadOf, if_true, List.length_append, List.length_singleton] at short
      omega
    rw [leadOf, if_pos rfl, List.append_assoc, List.append_assoc] at there
    have behind := (List.append_inj there same).2
    exact absurd (List.cons.inj behind).1 (by decide)

theorem has_lead_eq_false {needle lead more : Text}
    (absent : has needle (lead ++ ' ' :: more) = false) : has needle (lead ++ " ") = false := by
  rw [List.append_cons] at absent
  exact has_eq_false_of_append absent

/-- The text in front of a line's verb is clear of what the whole line is clear of. -/
theorem clear_of_line {tried : List Text} {lead more : Text}
    (begins : ∀ key ∈ beginnings, hasStart key (lead ++ ' ' :: more) = false)
    (posts : ∀ needle ∈ postNeedles, has needle (lead ++ ' ' :: more) = false)
    (others : ∀ needle ∈ tried, has needle (lead ++ " ") = false) :
    Clear (postNeedles ++ tried) lead where
  begins key hkey := by
    have absent := begins key hkey
    rw [List.append_cons] at absent
    exact hasStart_eq_false_of_append absent
  holds needle hneedle := by
    rcases List.mem_append.1 hneedle with post | other
    · exact has_lead_eq_false (posts needle post)
    · exact others needle other

/-- Only the words in front of the one that is sought pass a search for it. -/
theorem mem_of_mem_takeWhile {α : Type} {p : α → Bool} {before after : List α} {a b : α}
    (stop : p a = false) (inside : b ∈ (before ++ a :: after).takeWhile p) : b ∈ before := by
  rw [List.takeWhile_append] at inside
  split at inside
  · rwa [List.takeWhile_cons_of_neg (by simp [stop]), List.append_nil] at inside
  · exact (List.takeWhile_sublist p).subset inside

theorem head?_of_mem_needles {needle : Text} (inside : needle ∈ needles) :
    needle.head? = some ' ' ∧ 2 ≤ needle.length := by
  have table : ∀ needle ∈ needles, needle.head? = some ' ' ∧ 2 ≤ needle.length := by decide
  exact table needle inside

/-- A needle that is found, and told of a player, is found behind the name if it is not
among the words. -/
theorem length_leadOf_le_of_actorName {needle more front rest : Text} (sought : needle ∈ needles)
    (found : cut? needle (leadOf name colon ++ more) = some (front, rest))
    (told : BodyLine.actorName front = name) : (leadOf name colon).length ≤ front.length :=
  length_leadOf_le (head?_of_mem_needles sought).1 found
    (told ▸ BodyLine.length_actorName_le front)

/-- A line about a deed is told of a player only if the player's name is clear. -/
theorem Deed.clear_of_actor? {deed : Deed} (starts : Starts name)
    (told : (BodyLine.ofText false (deed.textOf (leadOf name colon))).actor? = some name) :
    Clear deed.tried (leadOf name colon) := by
  have solid : Starts (deed.textOf (leadOf name colon)) := (starts_leadOf starts).append _
  rw [BodyLine.ofText_eq_ofOpenText solid ends_textOf told] at told
  obtain ⟨begins, posts, split⟩ := BodyLine.ofOpenText_of_actor? told
  rw [split] at told
  have noWinner : BodyLine.ofWinner? (deed.textOf (leadOf name colon)) = none := by
    cases won : BodyLine.ofWinner? (deed.textOf (leadOf name colon)) with
    | none => rfl
    | some line =>
      obtain ⟨before, word, after, front, rest, whole, -, found, rfl⟩ :=
        BodyLine.exists_cut?_of_ofWinner? won
      have inside : word ∈ BodyLine.winnerWords := by simp [whole]
      rw [won] at told
      have late := length_leadOf_le_of_actorName
        (List.mem_append_right _ (List.mem_append_left _ inside)) found (Option.some.inj told)
      have early := length_lt_of_cut? (cut?_foreign (List.mem_cons_of_mem _ inside)) found
      omega
  rw [noWinner] at told
  obtain ⟨before, word, after, front, rest, whole, others, found, same⟩ :=
    BodyLine.exists_cut?_of_ofAction told
  rw [withoutAllIn_textOf, padded_eq] at found others
  have inside : word ∈ BodyLine.actionWords := by simp [whole]
  have sought : word.1 ∈ needles :=
    List.mem_append_right _ (List.mem_append_right _ (List.mem_map_of_mem inside))
  have late := length_leadOf_le_of_actorName sought found same
  have own : word.1 = needleOf deed.kind := by
    by_contra other
    have early := length_lt_of_cut? (cut?_other inside other) found
    omega
  refine clear_of_line begins posts fun needle hneedle => ?_
  rcases List.mem_append.1 hneedle with winner | hneedle
  · rw [BodyLine.ofWinner?, Option.map_eq_none_iff, List.findSome?_eq_none_iff] at noWinner
    exact has_lead_eq_false (congrArg Option.isSome (noWinner needle winner))
  · rcases List.mem_append.1 hneedle with action | hneedle
    · obtain ⟨other, hother, rfl⟩ := List.mem_map.1 action
      rw [Deed.wordsBefore, whole] at hother
      have earlier := mem_of_mem_takeWhile (by simp [own]) hother
      exact has_lead_eq_false (congrArg Option.isSome (others other earlier))
    · rw [List.mem_singleton.1 hneedle, ← own]
      exact has_eq_false_of_cut? (head?_of_mem_needles sought).2 found late

/-- Besides the word that a winner is found by, no word of the line tells of one. -/
theorem cut?_wins_collected (chips : Chips) :
    cut? " wins " (spaced ["collected".toList, chips.text, "from".toList, "pot".toList]) = none := by
  have told : ∀ word ∈ ["collected".toList, chips.text, "from".toList, "pot".toList],
      word ∈ ["collected".toList, "from".toList, "pot".toList] ∨
        ∃ chips : Chips, word = chips.text := by
    intro word hword
    simp only [List.mem_cons, List.not_mem_nil, or_false] at hword ⊢
    rcases hword with h | h | h | h
    · exact Or.inl (Or.inl h)
    · exact Or.inr ⟨chips, h⟩
    · exact Or.inl (Or.inr (Or.inl h))
    · exact Or.inl (Or.inr (Or.inr h))
  exact cut?_told (by decide) told (by decide)

/-- A line about a pot is told of a winner only if the winner's name is clear. -/
theorem clear_of_winner? {chips : Chips} (starts : Starts name)
    (told : (BodyLine.ofText false (collectedOf name chips)).winner? = some name) :
    Clear (winnerTried "collected") name := by
  have solid : Starts (collectedOf name chips) := starts.append _
  have acts := BodyLine.actor?_of_winner? told
  rw [BodyLine.ofText_eq_ofOpenText solid ends_collectedOf acts] at told acts
  obtain ⟨begins, posts, split⟩ := BodyLine.ofOpenText_of_actor? acts
  rw [split] at told
  cases won : BodyLine.ofWinner? (collectedOf name chips) with
  | none =>
    rw [won, Option.getD_none, BodyLine.winner?_ofAction] at told
    cases told
  | some line =>
    obtain ⟨before, word, after, front, rest, whole, -, found, rfl⟩ :=
      BodyLine.exists_cut?_of_ofWinner? won
    rw [won] at told
    have late : name.length ≤ front.length :=
      Option.some.inj told ▸ BodyLine.length_actorName_le front
    have inside : word ∈ BodyLine.winnerWords := by simp [whole]
    have own : word = winnerNeedle "collected" := by
      rcases List.mem_cons.1 inside with own | other
      · exact own
      · rw [List.mem_singleton.1 other] at found
        have early := length_lt_of_cut? (cut?_wins_collected chips) found
        omega
    refine clear_of_line begins posts fun needle hneedle => ?_
    rw [show needle = word from (List.mem_singleton.1 hneedle).trans own.symm]
    exact has_eq_false_of_cut? (by rw [own]; decide) found late

theorem Deed.fit_of_actor? {deed : Deed} (starts : Starts name)
    (told : (BodyLine.ofText false (deed.textOf (leadOf name colon))).actor? = some name) :
    name.getLast? ≠ some ':' ∧ Clear deed.tried (leadOf name colon) := by
  have clear := deed.clear_of_actor? starts told
  obtain ⟨tail, read, -⟩ := ofText_textOf (starts_leadOf starts) clear (Or.inl rfl)
  rw [read] at told
  exact ⟨getLast?_of_actorName starts (Option.some.inj told), clear⟩

theorem fit_of_winner? {chips : Chips} (starts : Starts name)
    (told : (BodyLine.ofText false (collectedOf name chips)).winner? = some name) :
    name.getLast? ≠ some ':' ∧ Clear (winnerTried "collected") name := by
  have clear := clear_of_winner? starts told
  have read := @ofText_winner chips _ _ (collectedOf name chips) false (Or.inl rfl)
    starts clear _ (fun _ inside => inside) rfl ends_collectedOf (Or.inl rfl)
  rw [read] at told
  have whose : BodyLine.actorName (leadOf name false) = name := by
    rw [leadOf_false]
    exact Option.some.inj told
  exact ⟨getLast?_of_actorName starts whose, clear⟩

end Written

/-! ## Drafts -/

namespace History

open Reading

variable {context : HandContext} {lines : List Text} {draft : Draft} {name : Text}

/-- The names of the players who sit at the table are trimmed. -/
theorem trimmed_of_mem_seats (ofHand : context.handId ≠ [])
    (reached : draftOf context lines {} = .ok draft) (seated : name ∈ draft.seats.toList)
    (named : name ≠ []) : Starts name ∧ Ends name := by
  rw [(draftOf_eq_ok ofHand rfl reached).1] at seated
  rcases BodyLine.mem_foldl_sit seated with free | ⟨line, told, place, sits⟩
  · rw [show (NameRow.free).toList = List.replicate 10 [] from Vector.toList_replicate] at free
    exact absurd (List.eq_of_mem_replicate free) named
  · obtain ⟨opened, raw, rfl⟩ := BodyLine.exists_ofText_of_mem_said told
    obtain ⟨body, rfl⟩ := BodyLine.exists_seatedName_of_seating? sits
    exact ⟨starts_trimLine named, ends_trimLine named⟩

theorem exists_winners_addWinner : ∃ won, (draft.addWinner name).winners = draft.winners ++ won ∧
    ∀ other ∈ won, other = name := by
  rw [Draft.addWinner]
  split
  · exact ⟨[], (List.append_nil _).symm, by simp⟩
  · exact ⟨[name], rfl, fun other inside => List.mem_singleton.1 inside⟩

/-- Nobody but the player of a line gets an action by it, or wins by it. -/
theorem consume_of_actor? {after : Draft} {raw : Text} (ofHand : context.handId ≠ [])
    (reading : draft.inSummary = false) (read : Answers (draft.consume context raw) (.ok after)) :
    (∃ told, after.actions = draft.actions ++ told ∧ ∀ action ∈ told,
      (BodyLine.ofText draft.seatsOpen raw).actor? = some action.player) ∧
    ∃ won, after.winners = draft.winners ++ won ∧ ∀ other ∈ won,
      (BodyLine.ofText draft.seatsOpen raw).winner? = some other := by
  by_cases summary : BodyLine.ofText draft.seatsOpen raw = .summary
  · have taken := @answers_consume_of_summary context draft reading raw summary
    cases taken.answer_eq.symm.trans read.answer_eq
    exact ⟨⟨[], (List.append_nil _).symm, by simp⟩, [], (List.append_nil _).symm, by simp⟩
  · rcases Draft.decides_consume ofHand reading summary with
      ⟨-, e, failed⟩ | ⟨-, next, taken, takes⟩
    · cases failed.answer_eq.symm.trans read.answer_eq
    · cases taken.answer_eq.symm.trans read.answer_eq
      refine ⟨takes.actions, ?_⟩
      rw [takes.winners]
      cases told : (BodyLine.ofText draft.seatsOpen raw).winner? with
      | none => exact ⟨[], (List.append_nil _).symm, by simp⟩
      | some winner =>
        rw [Option.elim_some]
        split
        · obtain ⟨won, same, only⟩ := @exists_winners_addWinner { draft with seatsOpen := _ } winner
          exact ⟨won, same, fun other inside => congrArg some (only other inside).symm⟩
        · exact ⟨[], (List.append_nil _).symm, by simp⟩

theorem answers_consume_deed (ofHand : context.handId ≠ []) (closed : draft.seatsOpen = false)
    (reading : draft.inSummary = false) (seated : name ∈ draft.seats.toList)
    (starts : Starts name) (ends : Ends name) (noColon : name.getLast? ≠ some ':') {deed : Deed}
    {colon : Bool} (clear : Clear deed.tried (leadOf name colon)) :
    Answers (draft.consume context (deed.textOf (leadOf name colon)))
      (.ok (draft.acted context.handId
        { player := name, street := draft.currentStreet, kind := deed.kind,
          amount := deed.amount })) := by
  obtain ⟨tail, read, amount⟩ := @Deed.ofText_textOf deed (leadOf name colon) draft.seatsOpen
    (starts_leadOf starts) clear (Or.inl closed)
  rw [actorName_leadOf starts ends noColon] at read
  rw [Draft.consume_of_ofText reading read rfl, Draft.takeLine]
  have same : draft.closed = draft := by rw [Draft.closed, ← closed]
  rw [same]
  exact Draft.answers_takeAction ofHand starts.ne_nil seated amount _

theorem answers_consume_collected (sound : draft.Sound context) (closed : draft.seatsOpen = false)
    (reading : draft.inSummary = false) (seated : name ∈ draft.seats.toList)
    (starts : Starts name) (ends : Ends name) (noColon : name.getLast? ≠ some ':') {chips : Chips}
    (clear : Clear (winnerTried "collected") name) :
    Answers (draft.consume context (collectedOf name chips)) (.ok { draft with
      winners := if name ∈ draft.winners then draft.winners else draft.winners ++ [name] }) := by
  have read := @ofText_winner chips _ _ (collectedOf name chips) draft.seatsOpen (Or.inl rfl)
    starts clear _ (fun _ inside => inside) rfl ends_collectedOf (Or.inl closed)
  have trimmed := actorName_leadOf starts ends noColon false
  rw [leadOf_false] at trimmed
  rw [trimmed] at read
  rw [Draft.consume_of_ofText reading read rfl, Draft.takeLine]
  have same : draft.closed = draft := by rw [Draft.closed, ← closed]
  rw [same]
  exact Draft.answers_takeWinner sound starts.ne_nil seated _

/-- A line about a player who has a seat is told of this player, and of nobody else, just if
the name has no last colon, and nothing stands in it that a line is tried for before its own
word. -/
theorem seated_attributed {context : HandContext} {lines : List Text} {draft : Draft}
    {name : Text} (ofHand : context.handId ≠ [])
    (reached : draftOf context lines {} = .ok draft) (closed : draft.seatsOpen = false)
    (reading : draft.inSummary = false) (seated : name ∈ draft.seats.toList) (named : name ≠ []) :
    (∀ (deed : Deed) (colon : Bool),
      if name.getLast? ≠ some ':' ∧ Clear deed.tried (leadOf name colon) then
        Answers (draft.consume context (deed.textOf (leadOf name colon)))
          (.ok (draft.acted context.handId
            { player := name, street := draft.currentStreet, kind := deed.kind,
              amount := deed.amount }))
      else ∀ after, Answers (draft.consume context (deed.textOf (leadOf name colon))) (.ok after) →
        ∃ told, after.actions = draft.actions ++ told ∧ ∀ action ∈ told, action.player ≠ name) ∧
    ∀ chips : Chips,
      if name.getLast? ≠ some ':' ∧ Clear (winnerTried "collected") name then
        Answers (draft.consume context (collectedOf name chips)) (.ok { draft with
          winners := if name ∈ draft.winners then draft.winners else draft.winners ++ [name] })
      else ∀ after, Answers (draft.consume context (collectedOf name chips)) (.ok after) →
        (name ∈ after.winners ↔ name ∈ draft.winners) := by
  obtain ⟨starts, ends⟩ := trimmed_of_mem_seats ofHand reached seated named
  have sound := (inBody_draftOf (Draft.inBody_seats context .free) reached).toSound
  refine ⟨fun deed colon => ?_, fun chips => ?_⟩
  · split
    · next fit =>
      exact answers_consume_deed ofHand closed reading seated starts ends fit.1 fit.2
    · next unfit =>
      intro after read
      obtain ⟨⟨told, same, only⟩, -⟩ := consume_of_actor? ofHand reading read
      refine ⟨told, same, fun action inside whose => unfit ?_⟩
      have acts := only action inside
      rw [closed, whose] at acts
      exact Deed.fit_of_actor? starts acts
  · split
    · next fit =>
      exact answers_consume_collected sound closed reading seated starts ends fit.1 fit.2
    · next unfit =>
      intro after read
      obtain ⟨-, won, same, only⟩ := consume_of_actor? ofHand reading read
      rw [same, List.mem_append]
      refine or_iff_left fun inside => unfit ?_
      have wins := only name inside
      rw [closed] at wins
      exact fit_of_winner? starts wins

/-- A name of two words that is clear: the player folds, with a colon behind the name. -/
theorem seated_attributed_two_words :
    let context : HandContext := { file := [], handId := "1", cardDelimiter := " " }
    let name : Text := "ann lee"
    ∃ draft, draftOf context ["Seat 1: ann lee (5)", "*** PRE-FLOP ***"] {} = .ok draft ∧
      name ∈ draft.seats.toList ∧
      Answers (draft.consume context "ann lee: folds") (.ok (draft.acted "1"
        { player := name, street := draft.currentStreet, kind := .fold, amount := 0 })) := by
  intro context name
  have facts : (draftOf context ["Seat 1: ann lee (5)", "*** PRE-FLOP ***"] {}).map
      (fun draft => (draft.seatsOpen, draft.inSummary, draft.isSeated name)) =
        .ok (false, false, true) := by
    decide +kernel
  obtain ⟨draft, reached, told⟩ := exists_of_map_eq_ok facts
  obtain ⟨closed, rest⟩ := Prod.mk.inj told
  obtain ⟨reading, stands⟩ := Prod.mk.inj rest
  have seated := Draft.mem_seats_of_isSeated stands
  have attributed := (seated_attributed (by decide) reached closed reading seated (by decide)).1
    Deed.folds true
  rw [if_pos ⟨by decide, by decide⟩] at attributed
  exact ⟨draft, reached, seated, attributed⟩

/-- Two names that lines are not told of: one holds a word that is tried for, the other
ends with a colon. Both players fold, and nothing is kept of it. -/
theorem seated_unattributed :
    let context : HandContext := { file := [], handId := "1", cardDelimiter := " " }
    ∃ draft, draftOf context ["Seat 1: ann wins (5)", "Seat 2: ann: (5)", "*** PRE-FLOP ***"] {} =
        .ok draft ∧
      draft.seatsOpen = false ∧ draft.inSummary = false ∧
      "ann wins".toList ∈ draft.seats.toList ∧ "ann:".toList ∈ draft.seats.toList ∧
      Answers (draft.consume context "ann wins folds") (.ok draft) ∧
      Answers (draft.consume context "ann: folds") (.ok draft) := by
  intro context
  have facts : (draftOf context
      ["Seat 1: ann wins (5)", "Seat 2: ann: (5)", "*** PRE-FLOP ***"] {}).map (fun draft =>
        (draft.seatsOpen, draft.inSummary, ["ann wins".toList, "ann:", "ann"].map draft.isSeated)) =
        .ok (false, false, [true, true, false]) := by
    decide +kernel
  obtain ⟨draft, reached, told⟩ := exists_of_map_eq_ok facts
  obtain ⟨closed, rest⟩ := Prod.mk.inj told
  obtain ⟨reading, stand⟩ := Prod.mk.inj rest
  simp only [List.map_cons, List.map_nil, List.cons.injEq, and_true] at stand
  obtain ⟨first, second, other⟩ := stand
  have nobody : "ann".toList ∉ draft.seats.toList := fun inside => by
    rw [Draft.isSeated_of_mem inside] at other
    cases other
  have same : draft.closed = draft := by rw [Draft.closed, ← closed]
  have dropped : ∀ raw, (BodyLine.ofText false raw).actor? = some "ann".toList →
      Answers (draft.consume context raw) (.ok draft) := by
    intro raw acts
    rw [← closed] at acts
    have kept := @answers_consume_of_unseated context draft raw _ reading acts nobody
    rwa [same] at kept
  exact ⟨draft, reached, closed, reading, Draft.mem_seats_of_isSeated first,
    Draft.mem_seats_of_isSeated second, dropped _ (by decide +kernel),
    dropped _ (by decide +kernel)⟩

end History

end HandHistory
