import HandHistory.Roster
import Mathlib.Data.List.Nodup

/-!
# Players by name

A set of players is known by its look-up: which names it has, and which player
each name stands for. Everything that adds players, to a set, a roster or a
site, is one placement of a newcomer, and `find?_place` says what a placement
changes: whoever is there stays, and takes over a raised hero flag.

`Players.Hero` is the flag as a property of a name. It is what survives when
the players of many files come together, in whatever order they come.
-/

namespace HandHistory

theorem Player.create_of_ne_nil {name site : Text} (hname : name ≠ []) (hsite : site ≠ []) :
    Player.create name site = .ok { name, site, name_ne_nil := hname, site_ne_nil := hsite } := by
  simp [Player.create, hname, hsite]

theorem Player.create_eq_ok {name site : Text} {player : Player}
    (created : Player.create name site = .ok player) :
    player.name = name ∧ player.site = site ∧ player.isHero = false := by
  rw [Player.create] at created
  split at created
  · cases created
  · split at created
    · cases created
    · cases created
      exact ⟨rfl, rfl, rfl⟩

namespace Players

theorem eq_of_not_lt {a b : Text} (hab : ¬ a < b) (hba : ¬ b < a) : a = b :=
  List.le_antisymm (List.not_lt.1 hba) (List.not_lt.1 hab)

theorem ne_of_lt {a b : Text} (h : a < b) : a ≠ b := by
  rintro rfl
  exact List.lt_irrefl a h

theorem name_of_find? {players : Players} {name : Text} {player : Player}
    (found : players.find? name = some player) : player.name = name := by
  simpa using List.find?_some (found : players.toList.find? (·.name == name) = some player)

/-- No player is without a name. -/
@[simp] theorem find?_nil (players : Players) : players.find? [] = none := by
  cases found : players.find? [] with
  | none => rfl
  | some player => exact absurd (name_of_find? found) player.name_ne_nil

theorem mem_names_iff {players : Players} {name : Text} :
    name ∈ players.names ↔ (players.find? name).isSome = true := by
  simp [names, find?, List.find?_isSome]

/-- A player of the set stands for its name. -/
theorem find?_eq_some_iff {players : Players} {name : Text} {player : Player} :
    players.find? name = some player ↔ player ∈ players.toList ∧ player.name = name := by
  constructor
  · intro found
    exact ⟨List.mem_of_find?_eq_some found, name_of_find? found⟩
  · rintro ⟨inside, rfl⟩
    obtain ⟨other, found⟩ := Option.isSome_iff_exists.1
      (mem_names_iff.1 (List.mem_map_of_mem inside : player.name ∈ players.names))
    have there := List.mem_of_find?_eq_some found
    rw [found, List.inj_on_of_nodup_map players.names_nodup there inside (name_of_find? found)]

/-- What a placement changes, for a list in the order of names. -/
theorem find?_placeIn (flag : Bool) (newcomer : Player) (name : Text) {players : List Player}
    (ordered : players.Pairwise fun a b => a.name < b.name) :
    (placeIn flag newcomer players).find? (·.name == name) =
      if newcomer.name = name then
        some (((players.find? (·.name == name)).map (Player.flagged flag)).getD newcomer)
      else players.find? (·.name == name) := by
  induction players with
  | nil => by_cases h : newcomer.name = name <;> simp [placeIn, h]
  | cons player players ih =>
    obtain ⟨first, rest⟩ := List.pairwise_cons.1 ordered
    simp only [placeIn]
    split
    · next before =>
      -- everybody behind the newcomer has a greater name
      by_cases h : newcomer.name = name
      · have absent : (player :: players).find? (·.name == name) = none := by
          apply List.find?_eq_none.2
          intro q hq
          have above : newcomer.name < q.name := by
            rcases List.mem_cons.1 hq with rfl | hq
            · exact before
            · exact List.lt_trans before (first q hq)
          have different := ne_of_lt above
          simpa [← h] using different.symm
        rw [absent]
        simp [h]
      · simp [h]
    · split
      · next after =>
        have different := ne_of_lt after
        rw [List.find?_cons, List.find?_cons, ih rest]
        by_cases h : player.name = name
        · have other : newcomer.name ≠ name := fun same => different (h.trans same.symm)
          simp [h, other]
        · have unlike : (player.name == name) = false := beq_eq_false_iff_ne.2 h
          simp [unlike]
      · next notBefore notAfter =>
        have same := eq_of_not_lt notBefore notAfter
        by_cases h : player.name = name
        · simp [h, same]
        · simp [h, same]

theorem find?_place (flag : Bool) (newcomer : Player) (players : Players) (name : Text) :
    (players.place flag newcomer).find? name =
      if newcomer.name = name then
        some (((players.find? name).map (Player.flagged flag)).getD newcomer)
      else players.find? name :=
  find?_placeIn flag newcomer name players.ordered

/-- The name stands for a player, and that player is the hero. -/
def Hero (name : Text) (players : Players) : Prop :=
  ∃ player, players.find? name = some player ∧ player.isHero = true

theorem mem_names_place {flag : Bool} {newcomer : Player} {players : Players} {name : Text} :
    name ∈ (players.place flag newcomer).names ↔
      name = newcomer.name ∨ name ∈ players.names := by
  rw [mem_names_iff, mem_names_iff, find?_place]
  by_cases h : newcomer.name = name
  · simp [h]
  · have h' : name ≠ newcomer.name := fun same => h same.symm
    simp [h, h']

/-- Absorbing a player adds that player's flag to the name. -/
theorem hero_absorb {newcomer : Player} {players : Players} {name : Text} :
    (players.absorb newcomer).Hero name ↔
      (name = newcomer.name ∧ newcomer.isHero = true) ∨ players.Hero name := by
  unfold Hero
  rw [absorb, find?_place]
  by_cases h : newcomer.name = name
  · subst h
    cases players.find? newcomer.name with
    | none => simp
    | some player => simp [Player.flagged, or_comm]
  · have h' : name ≠ newcomer.name := fun same => h same.symm
    simp [h, h']

theorem hero_iff_mem {players : Players} {name : Text} :
    players.Hero name ↔ ∃ player ∈ players.toList, player.name = name ∧ player.isHero = true := by
  simp only [Hero, find?_eq_some_iff, and_assoc]

/-- Players from any number of sources, absorbed one after the other. -/
theorem mem_names_foldl_absorb {newcomers : List Player} {players : Players} {name : Text} :
    name ∈ (newcomers.foldl (fun known player => known.absorb player) players).names ↔
      (∃ newcomer ∈ newcomers, newcomer.name = name) ∨ name ∈ players.names := by
  induction newcomers generalizing players with
  | nil => simp
  | cons newcomer newcomers ih =>
    rw [List.foldl_cons, ih, absorb, mem_names_place]
    simp only [List.exists_mem_cons_iff, or_assoc, or_left_comm, eq_comm]

theorem hero_foldl_absorb {newcomers : List Player} {players : Players} {name : Text} :
    (newcomers.foldl (fun known player => known.absorb player) players).Hero name ↔
      (∃ newcomer ∈ newcomers, newcomer.name = name ∧ newcomer.isHero = true) ∨
        players.Hero name := by
  induction newcomers generalizing players with
  | nil => simp
  | cons newcomer newcomers ih =>
    rw [List.foldl_cons, ih, hero_absorb]
    simp only [List.exists_mem_cons_iff, or_assoc, or_left_comm, eq_comm]

/-! ## Draining -/

/-- A newcomer behind everybody goes to the end. -/
theorem placeIn_last {flag : Bool} {newcomer : Player} {players : List Player}
    (last : ∀ player ∈ players, player.name < newcomer.name) :
    placeIn flag newcomer players = players ++ [newcomer] := by
  induction players with
  | nil => rfl
  | cons player players ih =>
    have after := last player List.mem_cons_self
    have notBefore : ¬ newcomer.name < player.name := fun before =>
      List.lt_irrefl _ (List.lt_trans before after)
    have rest := ih fun q hq => last q (List.mem_cons_of_mem _ hq)
    simp [placeIn, notBefore, after, rest]

theorem toList_foldl_add {newcomers : List Player} {players : Players}
    (ordered : (players.toList ++ newcomers).Pairwise fun a b => a.name < b.name) :
    (newcomers.foldl (fun known player => known.add player) players).toList =
      players.toList ++ newcomers := by
  induction newcomers generalizing players with
  | nil => simp
  | cons newcomer newcomers ih =>
    have last : ∀ player ∈ players.toList, player.name < newcomer.name := fun player hp =>
      (List.pairwise_append.1 ordered).2.2 player hp newcomer List.mem_cons_self
    have placed : (players.add newcomer).toList = players.toList ++ [newcomer] :=
      placeIn_last last
    have before : ((players.add newcomer).toList ++ newcomers).Pairwise
        fun a b => a.name < b.name := by
      rw [placed]
      simpa using ordered
    rw [List.foldl_cons, ih before, placed, List.append_assoc, List.singleton_append]

/-- Players that are added to none are all there is. -/
theorem foldl_add_empty (players : Players) :
    players.toList.foldl (fun known player => known.add player) .empty = players := by
  refine ext ?_
  rw [toList_foldl_add (by simpa [empty] using players.ordered)]
  rfl

end Players

namespace Site

theorem snd_addPlayers (players : List Player) (site : Site) :
    (site.addPlayers players).2 =
      { site with
        players := players.foldl (fun known player => known.add player) site.players } := by
  have uncounted : (site.addPlayers players).2 =
      players.foldl (fun site player => (site.addPlayer player).2) site :=
    (List.foldl_hom Prod.snd fun _ _ => rfl).symm
  rw [uncounted]
  clear uncounted
  induction players generalizing site with
  | nil => rfl
  | cons player players ih => exact ih _

end Site

namespace Roster

/-- A site without players takes over those of the roster, just as they are. -/
theorem site_drainInto {site : Site} (none : site.players = .empty) (roster : Roster) :
    (roster.drainInto site).2.1 = { site with players := roster.players } := by
  show (site.addPlayers roster.players.toList).2 = _
  rw [Site.snd_addPlayers, none, Players.foldl_add_empty]

/-! ## Enrolling -/

theorem enrol_nil (roster : Roster) : roster.enrol [] = .error (.emptyField .playerName) := by
  simp [enrol, Players.hasName, Player.create, bind, Except.bind]

theorem markHero_nil (roster : Roster) :
    roster.markHero [] = .error (.emptyField .playerName) := by
  rw [markHero, Players.find?_nil]
  rfl

theorem enrol_of_ne_nil {roster : Roster} {name : Text} (ready : roster.site ≠ [])
    (hname : name ≠ []) :
    ∃ isNew after, roster.enrol name = .ok (isNew, after) ∧ after.site = roster.site := by
  rw [enrol]
  split
  · exact ⟨false, roster, rfl, rfl⟩
  · rw [Player.create_of_ne_nil hname ready]
    exact ⟨true, _, rfl, rfl⟩

theorem markHero_of_ne_nil {roster : Roster} {name : Text} (ready : roster.site ≠ [])
    (hname : name ≠ []) :
    ∃ after, roster.markHero name = .ok after ∧ after.site = roster.site := by
  rw [markHero]
  split
  · exact ⟨_, rfl, rfl⟩
  · rw [Player.create_of_ne_nil hname ready]
    exact ⟨_, rfl, rfl⟩

end Roster

end HandHistory
