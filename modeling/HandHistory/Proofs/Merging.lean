import HandHistory.Proofs.Players
import Mathlib

/-!
# Merging sites

A site that is merged into another gives it its games, and those of its players whom the
other does not have. By name, the players of the result are those of the first site, and
behind them those of the second: `find?_merged`. Since a set of players is known by its
look-up, the sites of one name form a monoid under merging, with the empty site as unit.

A merge that is refused has changed nothing: the names are compared first (`run_mergeInto`).
-/

namespace HandHistory

namespace Players

/-- Players with the same look-up are the same. -/
theorem ext_find? {first second : Players}
    (same : ∀ name, first.find? name = second.find? name) : first = second := by
  have members : ∀ player, player ∈ first.toList ↔ player ∈ second.toList := by
    intro player
    have found := same player.name
    constructor
    · intro inside
      exact (find?_eq_some_iff.1 (found ▸ find?_eq_some_iff.2 ⟨inside, rfl⟩)).1
    · intro inside
      exact (find?_eq_some_iff.1 (found.symm ▸ find?_eq_some_iff.2 ⟨inside, rfl⟩)).1
  have perm : first.toList.Perm second.toList :=
    (List.perm_ext_iff_of_nodup (List.Nodup.of_map _ first.names_nodup)
      (List.Nodup.of_map _ second.names_nodup)).2 members
  refine ext (perm.eq_of_pairwise ?_ first.ordered second.ordered)
  intro a b _ _ before after
  exact absurd (List.lt_trans before after) (List.lt_irrefl _)

/-- A newcomer is found only if nobody else of that name is there. -/
theorem find?_add (newcomer : Player) (players : Players) (name : Text) :
    (players.add newcomer).find? name =
      (players.find? name).or (if newcomer.name = name then some newcomer else none) := by
  rw [add, find?_place]
  by_cases same : newcomer.name = name
  · rw [if_pos same, if_pos same]
    cases players.find? name with
    | none => rfl
    | some player => simp
  · rw [if_neg same, if_neg same, Option.or_none]

/-- Of players with one name, the first stays. -/
theorem find?_foldl_add (newcomers : List Player) (players : Players) (name : Text) :
    (newcomers.foldl (fun known player => known.add player) players).find? name =
      (players.find? name).or (newcomers.find? (·.name == name)) := by
  induction newcomers generalizing players with
  | nil => simp
  | cons newcomer newcomers ih =>
    rw [List.foldl_cons, ih, find?_add, Option.or_assoc, List.find?_cons]
    by_cases same : newcomer.name = name
    · simp [same]
    · have unlike : (newcomer.name == name) = false := beq_eq_false_iff_ne.2 same
      simp [same, unlike]

end Players

namespace Site

/-- The site with the games of another one behind its own, and with the players of the other
one whom it does not have. -/
def merged (site other : Site) : Site where
  name := site.name
  players := other.players.toList.foldl (fun known player => known.add player) site.players
  games := site.games ++ other.games

theorem merge_eq (site other : Site) : site.merge other =
    if other.name = site.name then .ok (site.merged other)
    else .error (.siteMismatch site.name other.name) := by
  rw [merge]
  split
  · dsimp only
    rw [snd_addPlayers]
    rfl
  · rfl

theorem merge_of_name {site other : Site} (same : other.name = site.name) :
    site.merge other = .ok (site.merged other) := by
  rw [merge_eq, if_pos same]

/-- Whoever is known to the first site is found there, and others in the second. -/
theorem find?_merged (site other : Site) (name : Text) :
    (site.merged other).players.find? name =
      (site.players.find? name).or (other.players.find? name) :=
  Players.find?_foldl_add other.players.toList site.players name

/-! ## The laws of a monoid -/

theorem merged_assoc (a b c : Site) : (a.merged b).merged c = a.merged (b.merged c) := by
  have players : ((a.merged b).merged c).players = (a.merged (b.merged c)).players := by
    refine Players.ext_find? fun name => ?_
    rw [find?_merged, find?_merged, find?_merged, find?_merged, Option.or_assoc]
  have games : a.games ++ b.games ++ c.games = a.games ++ (b.games ++ c.games) :=
    List.append_assoc a.games b.games c.games
  show Site.mk a.name ((a.merged b).merged c).players (a.games ++ b.games ++ c.games) = _
  rw [players, games]
  rfl

theorem empty_merged (site : Site) : merged { name := site.name } site = site := by
  rw [merged, Players.foldl_add_empty]
  rfl

theorem merged_empty (site : Site) (name : Text) : site.merged { name } = site := by
  show Site.mk site.name site.players (site.games ++ []) = site
  rw [List.append_nil]

/-! ## What a merge adds up -/

/-- A site that holds what two sites hold: the games of the first and behind them those of the
second, and the players of both by name, where the first has the say. -/
structure IsMergeOf (a b whole : Site) : Prop where
  name : whole.name = a.name
  cashGames : whole.cashGames = a.cashGames ++ b.cashGames
  tournaments : whole.tournaments = a.tournaments ++ b.tournaments
  gameCount : whole.gameCount = a.gameCount + b.gameCount
  handCount : whole.handCount = a.handCount + b.handCount
  actionCount : whole.actionCount = a.actionCount + b.actionCount
  names : ∀ name, name ∈ whole.players.names ↔ name ∈ a.players.names ∨ name ∈ b.players.names
  kept : ∀ name player, a.player? name = some player → whole.player? name = some player
  added : ∀ name, a.player? name = none → whole.player? name = b.player? name

/-- A count over the games of a merge is the sum of the counts. -/
theorem sum_games_merged (a b : Site) (count : StakedGame → Nat) :
    ((a.merged b).games.map count).sum = (a.games.map count).sum + (b.games.map count).sum := by
  rw [merged, List.map_append, List.sum_append]

theorem isMergeOf_merged (a b : Site) : IsMergeOf a b (a.merged b) where
  name := rfl
  cashGames := List.filter_append _ _
  tournaments := List.filter_append _ _
  gameCount := List.length_append
  handCount := sum_games_merged a b _
  actionCount := sum_games_merged a b _
  names := by
    intro name
    rw [Players.mem_names_iff, Players.mem_names_iff, Players.mem_names_iff, find?_merged,
      Option.isSome_or, Bool.or_eq_true]
  kept := by
    intro name player known
    rw [player?] at known ⊢
    rw [find?_merged, known, Option.some_or]
  added := by
    intro name unknown
    rw [player?] at unknown ⊢
    rw [find?_merged, unknown, Option.none_or]
    rfl

/-! ## Merging in place -/

/-- An update of a site, which may be refused. -/
abbrev Update := ExceptT ModelError (StateM Site) Unit

/-- The answer of an update, and the site it leaves. -/
def updated (update : Update) (site : Site) : Except ModelError Unit × Site :=
  StateT.run (ExceptT.run update) site

/-- Folds another site into the one that is the state: the names are compared, the players are
added one after the other, and then the games. -/
def mergeInto (other : Site) : Update := do
  let site ← get
  if other.name = site.name then
    other.players.toList.forM fun player => modify fun site => (site.addPlayer player).2
    modify fun site => { site with games := site.games ++ other.games }
  else throw (.siteMismatch site.name other.name)

theorem updated_addPlayers (newcomers : List Player) (next : Update) (site : Site) :
    updated (do newcomers.forM fun player => modify fun site => (site.addPlayer player).2
                next) site =
      updated next { site with
        players := newcomers.foldl (fun known player => known.add player) site.players } := by
  induction newcomers generalizing site with
  | nil => rfl
  | cons newcomer newcomers ih => exact ih (site.addPlayer newcomer).2

/-- A merge in place gives the merged site, or is refused and leaves the site as it was. -/
theorem updated_mergeInto (other site : Site) : updated (mergeInto other) site =
    match site.merge other with
    | .ok whole => (.ok (), whole)
    | .error e => (.error e, site) := by
  rw [merge_eq]
  by_cases same : other.name = site.name
  · have started : updated (mergeInto other) site =
        updated (do other.players.toList.forM fun player => modify fun site =>
                      (site.addPlayer player).2
                    modify fun site => { site with games := site.games ++ other.games }) site := by
      show updated (if other.name = site.name then _ else _) site = _
      rw [if_pos same]
    rw [started, updated_addPlayers, if_pos same]
    rfl
  · have refused : updated (mergeInto other) site =
        updated (throw (.siteMismatch site.name other.name)) site := by
      show updated (if other.name = site.name then _ else _) site = _
      rw [if_neg same]
    rw [refused, if_neg same]
    rfl

/-! ## Sites of one name -/

/-- The sites of one name are a monoid under merging, with the empty site as its unit, and a
merge adds up what the two sites hold. Sites of different names are not merged, and the first
one is left as it was. -/
theorem merge_monoid (a b c : Site) :
    (b.name = a.name → c.name = a.name → ∃ ab bc whole,
      a.merge b = .ok ab ∧ b.merge c = .ok bc ∧ ab.merge c = .ok whole ∧ a.merge bc = .ok whole ∧
      IsMergeOf a b ab ∧ updated (mergeInto b) a = (.ok (), ab)) ∧
    (a.merge { name := a.name } = .ok a ∧ merge { name := a.name } a = .ok a) ∧
    (b.name ≠ a.name → a.merge b = .error (.siteMismatch a.name b.name) ∧
      updated (mergeInto b) a = (.error (.siteMismatch a.name b.name), a)) := by
  refine ⟨fun second third => ?_, ⟨?_, ?_⟩, fun different => ?_⟩
  · have first : a.merge b = .ok (a.merged b) := merge_of_name second
    refine ⟨a.merged b, b.merged c, (a.merged b).merged c, first,
      merge_of_name (third.trans second.symm), merge_of_name third, ?_, isMergeOf_merged a b, ?_⟩
    · rw [merged_assoc]
      exact merge_of_name second
    · rw [updated_mergeInto, first]
  · rw [@merge_of_name a { name := a.name } rfl, merged_empty]
  · rw [@merge_of_name { name := a.name } a rfl, empty_merged]
  · have refused : a.merge b = .error (.siteMismatch a.name b.name) := by
      rw [merge_eq, if_neg different]
    exact ⟨refused, by rw [updated_mergeInto, refused]⟩

/-- A player of the first site stays as known there, although the second site knows better. -/
theorem merge_monoid_conflict :
    let ann : Player := { name := "ann", site := "R", comments := "first",
                          name_ne_nil := by decide, site_ne_nil := by decide }
    let bob : Player := { ann with name := "bob", name_ne_nil := by decide }
    let a : Site := { name := "R", players := Players.empty.add ann }
    let b : Site := { name := "R", players := (Players.empty.add bob).add (ann.flagged true) }
    let c : Site := { name := "R", players := Players.empty.add (bob.flagged true) }
    let other : Site := { name := "S" }
    (∃ ab bc whole, a.merge b = .ok ab ∧ b.merge c = .ok bc ∧
      ab.merge c = .ok whole ∧ a.merge bc = .ok whole ∧
      ab.player? "ann" = some ann ∧ ab.player? "bob" = some bob) ∧
    updated (mergeInto other) a = (.error (.siteMismatch "R" "S"), a) := by
  intro ann bob a b c other
  obtain ⟨ab, bc, whole, first, second, left, right, sums, -⟩ := (merge_monoid a b c).1 rfl rfl
  have known : a.player? "ann" = some ann := by decide
  have unknown : a.player? "bob" = none := by decide
  have brought : b.player? "bob" = some bob := by decide
  refine ⟨⟨ab, bc, whole, first, second, left, right, sums.kept _ _ known, ?_⟩, ?_⟩
  · exact (sums.added _ unknown).trans brought
  · exact ((merge_monoid a other c).2.2 (by decide)).2

end Site

end HandHistory
