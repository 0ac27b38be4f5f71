import HandHistory.Proofs.Interleavings
import HandHistory.Proofs.Merging
import Mathlib.Data.Finmap

/-!
# Draining rosters

A set of players has no keys: a name is looked up among the names that the players have.
Rosters and sites are kept as maps from keys to players, though, and such a map may hold
anybody under any key. Here the keys are back. A `Filing` is a map of that kind, what is done
to rosters and sites is done to it key by key, and its players come out in any order.

Every step keeps a filing and a set of players in agreement (`Filing.Shows`), so in every
filing that is reached each player is kept under the player's own name. Draining hangs on it:
of two players with one name the first would stay, and which one is first would be open.
-/

namespace HandHistory

namespace Players

variable {players : Players} {name : Text}

theorem find?_remove (name : Text) (players : Players) (key : Text) :
    (players.remove name).find? key = if key = name then none else players.find? key := by
  show (players.toList.filter _).find? _ = _
  rw [List.find?_filter]
  split
  · next same =>
    subst same
    apply List.find?_eq_none.2
    intro player _
    simp
  · next different =>
    refine congrArg (players.toList.find? ·) (funext fun player => ?_)
    by_cases same : player.name = key
    · simp [same, different]
    · simp [same]

theorem hasName_add (newcomer : Player) (players : Players) (name : Text) :
    (players.add newcomer).hasName name = (players.hasName name || newcomer.name == name) := by
  rw [hasName, find?_add, Option.isSome_or, hasName]
  by_cases same : newcomer.name = name <;> simp [same]

/-- Players of different names can be added in either order. -/
theorem add_comm {a b : Player} (different : a.name ≠ b.name) (players : Players) :
    (players.add a).add b = (players.add b).add a := by
  refine ext_find? fun name => ?_
  rw [find?_add, find?_add, find?_add, find?_add, Option.or_assoc, Option.or_assoc]
  by_cases first : a.name = name
  · have other : b.name ≠ name := fun second => different (first.trans second.symm)
    simp [first, other]
  · simp [first]

theorem length_placeIn (flag : Bool) (newcomer : Player) {players : List Player}
    (ordered : players.Pairwise fun a b => a.name < b.name) :
    (placeIn flag newcomer players).length =
      players.length + if (players.find? (·.name == newcomer.name)).isSome then 0 else 1 := by
  induction players with
  | nil => rfl
  | cons player players ih =>
    obtain ⟨first, rest⟩ := List.pairwise_cons.1 ordered
    simp only [placeIn]
    split
    · next before =>
      have absent : (player :: players).find? (·.name == newcomer.name) = none := by
        apply List.find?_eq_none.2
        intro q hq
        have above : newcomer.name < q.name := by
          rcases List.mem_cons.1 hq with rfl | hq
          · exact before
          · exact List.lt_trans before (first q hq)
        simpa using (ne_of_lt above).symm
      rw [absent]
      rfl
    · split
      · next after =>
        have unlike : (player.name == newcomer.name) = false :=
          beq_eq_false_iff_ne.2 (ne_of_lt after)
        rw [List.length_cons, ih rest, List.find?_cons_of_neg (by simp [unlike]), List.length_cons]
        omega
      · next notBefore notAfter =>
        have same := eq_of_not_lt notBefore notAfter
        simp [same]

/-- A set grows by the newcomer, unless somebody of that name is there. -/
theorem count_add (newcomer : Player) (players : Players) :
    (players.add newcomer).count =
      players.count + if players.hasName newcomer.name then 0 else 1 :=
  length_placeIn false newcomer players.ordered

end Players

/-! ## Adding players one after the other -/

/-- Adds a player to whatever holds players, and counts those of whom it is told that they
are new. -/
def tally {σ : Type} (add : Player → σ → Bool × σ) (soFar : Nat × σ) (player : Player) :
    Nat × σ :=
  (if (add player soFar.2).1 then soFar.1 + 1 else soFar.1, (add player soFar.2).2)

namespace Site

theorem addPlayers_eq_foldl (players : List Player) (site : Site) :
    site.addPlayers players = players.foldl (tally addPlayer) (0, site) := rfl

/-- The count goes up whenever the site grows. -/
theorem playerCount_tally (player : Player) (soFar : Nat × Site) :
    (tally addPlayer soFar player).2.playerCount + soFar.1 =
      soFar.2.playerCount + (tally addPlayer soFar player).1 := by
  have grown := Players.count_add player soFar.2.players
  show (soFar.2.players.add player).count + soFar.1 = soFar.2.players.count +
    if (!soFar.2.players.hasName player.name) = true then soFar.1 + 1 else soFar.1
  cases known : soFar.2.players.hasName player.name with
  | true =>
    rw [known] at grown
    simp only [if_true] at grown
    simp only [Bool.not_true, Bool.false_eq_true, if_false]
    omega
  | false =>
    rw [known] at grown
    simp only [Bool.false_eq_true, if_false] at grown
    simp only [Bool.not_false, if_true]
    omega

/-- The number that is told is the number by which the site has grown. -/
theorem playerCount_addPlayers (players : List Player) (site : Site) :
    (site.addPlayers players).2.playerCount = site.playerCount + (site.addPlayers players).1 := by
  -- players are added to a site that has grown already
  suffices further : ∀ soFar : Nat × Site,
      (players.foldl (tally addPlayer) soFar).2.playerCount + soFar.1 =
        soFar.2.playerCount + (players.foldl (tally addPlayer) soFar).1 from further (0, site)
  induction players with
  | nil => exact fun soFar => rfl
  | cons player players ih =>
    intro soFar
    have first := playerCount_tally player soFar
    have others := ih (tally addPlayer soFar player)
    rw [List.foldl_cons]
    omega

/-- Players of different names are added in either order. -/
theorem tally_comm {a b : Player} (different : a.name ≠ b.name) (soFar : Nat × Site) :
    tally addPlayer (tally addPlayer soFar a) b = tally addPlayer (tally addPlayer soFar b) a := by
  have back : (a.name == b.name) = false := beq_eq_false_iff_ne.2 different
  have forth : (b.name == a.name) = false := beq_eq_false_iff_ne.2 different.symm
  simp only [tally, addPlayer, Players.hasName_add, Players.add_comm different, back, forth,
    Bool.or_false]
  refine Prod.ext ?_ rfl
  by_cases first : soFar.2.players.hasName a.name <;>
    by_cases second : soFar.2.players.hasName b.name <;> simp [first, second]

/-- The order in which players of different names are added does not count. -/
theorem addPlayers_of_perm {order players : List Player} (perm : order.Perm players)
    (distinct : (players.map Player.name).Nodup) (site : Site) :
    site.addPlayers order = site.addPlayers players := by
  have apart : (order.map Player.name).Nodup := (perm.map Player.name).nodup_iff.2 distinct
  refine perm.foldl_eq' ?_ (0, site)
  intro a ha b hb soFar
  by_cases same : a = b
  · rw [same]
  · have different : a.name ≠ b.name := fun names =>
      same (List.inj_on_of_nodup_map apart ha hb names)
    exact tally_comm different soFar

end Site

/-! ## Players under keys -/

/-- Players under keys, in no order. -/
abbrev Filing := Finmap fun _ : Text => Player

namespace Filing

/-- Files a new player under a name, unless somebody is there; tells whether nobody was. -/
def enrol (name site : Text) (filing : Filing) : Except ModelError (Bool × Filing) :=
  if name ∈ filing then .ok (false, filing)
  else do
    let player ← Player.create name site
    return (true, filing.insert name player)

/-- Raises the flag of the player under a name, who is filed first if need be. -/
def markHero (name site : Text) (filing : Filing) : Except ModelError Filing :=
  match filing.lookup name with
  | some player => .ok (filing.insert name (player.flagged true))
  | none => do
    let player ← Player.create name site
    return filing.insert name (player.flagged true)

/-- Files a player who comes from elsewhere; whoever is there already takes over the flag. -/
def absorb (filing : Filing) (player : Player) : Filing :=
  match filing.lookup player.name with
  | some known => filing.insert player.name (known.flagged player.isHero)
  | none => filing.insert player.name player

/-- Files a player unless somebody is there; tells whether nobody was. -/
def add (player : Player) (filing : Filing) : Bool × Filing :=
  if player.name ∈ filing then (false, filing) else (true, filing.insert player.name player)

/-- Files players one after the other; tells how many of them were new. -/
def addAll (players : List Player) (filing : Filing) : Nat × Filing :=
  players.foldl (tally add) (0, filing)

/-- One operation of a client, and the reply to it. -/
def perform (site : Text) (filing : Filing) : Roster.Operation → Roster.Reply × Filing
  | .enrol name =>
    match filing.enrol name site with
    | .ok (isNew, after) => (.enrolled isNew, after)
    | .error e => (.refused e, filing)
  | .markHero name =>
    match filing.markHero name site with
    | .ok after => (.done, after)
    | .error e => (.refused e, filing)
  | .absorb players => (.done, players.foldl absorb filing)

/-- The players of the filing in one of the orders in which they can come out of it. -/
def Lists (filing : Filing) (order : List Player) : Prop :=
  filing.entries.map Sigma.snd = (order : Multiset Player)

/-- The filing has under each key whom the set has under that name. -/
def Shows (filing : Filing) (players : Players) : Prop :=
  ∀ key, filing.lookup key = players.find? key

variable {filing : Filing} {players : Players} {roster : Roster} {site : Site}

theorem shows_empty : Shows ∅ .empty := fun _ => rfl

theorem Shows.mem_iff (shows : filing.Shows players) (key : Text) :
    key ∈ filing ↔ players.hasName key = true := by
  rw [← Finmap.lookup_isSome, shows key]
  exact Iff.rfl

/-- The step of all steps: who is filed under the own name takes a place in the set. -/
theorem Shows.place (shows : filing.Shows players) (flag : Bool) (newcomer : Player)
    {filed : Player}
    (same : ((players.find? newcomer.name).map (Player.flagged flag)).getD newcomer = filed) :
    Shows (filing.insert newcomer.name filed) (players.place flag newcomer) := by
  intro key
  rw [Players.find?_place]
  by_cases here : newcomer.name = key
  · subst here
    rw [Finmap.lookup_insert, if_pos rfl, same]
  · have elsewhere : key ≠ newcomer.name := fun other => here other.symm
    rw [Finmap.lookup_insert_of_ne _ elsewhere, if_neg here, shows key]

theorem Shows.erase (shows : filing.Shows players) (name : Text) :
    Shows (filing.erase name) (players.remove name) := by
  intro key
  rw [Players.find?_remove]
  by_cases here : key = name
  · rw [here, Finmap.lookup_erase, if_pos rfl]
  · rw [Finmap.lookup_erase_ne here, if_neg here, shows key]

theorem Shows.absorb (shows : filing.Shows players) (player : Player) :
    (filing.absorb player).Shows (players.absorb player) := by
  have known := shows player.name
  rw [Filing.absorb, known]
  cases found : players.find? player.name with
  | none => exact shows.place player.isHero player (by rw [found]; rfl)
  | some other => exact shows.place player.isHero player (by rw [found]; rfl)

theorem Shows.foldl_absorb (shows : filing.Shows players) (newcomers : List Player) :
    Shows (newcomers.foldl Filing.absorb filing)
      (newcomers.foldl (fun known player => known.absorb player) players) := by
  induction newcomers generalizing filing players with
  | nil => exact shows
  | cons newcomer newcomers ih => exact ih (shows.absorb newcomer)

/-- An operation gets the same reply, and what it leaves is in agreement again. -/
theorem Shows.perform (shows : filing.Shows roster.players) (operation : Roster.Operation) :
    (filing.perform roster.site operation).1 = (operation.perform roster).1 ∧
      (filing.perform roster.site operation).2.Shows (operation.perform roster).2.players := by
  cases operation with
  | enrol name =>
    rw [Filing.perform, Filing.enrol, Roster.Operation.perform, Roster.enrol]
    by_cases known : name ∈ filing
    · rw [if_pos known, if_pos ((shows.mem_iff name).1 known)]
      exact ⟨rfl, shows⟩
    · have unknown : ¬ roster.players.hasName name = true := fun inside =>
        known ((shows.mem_iff name).2 inside)
      rw [if_neg known, if_neg unknown]
      cases created : Player.create name roster.site with
      | error e => exact ⟨rfl, shows⟩
      | ok player =>
        obtain ⟨rfl, -, -⟩ := Player.create_eq_ok created
        have nobody : roster.players.find? player.name = none := by
          simpa [Players.hasName] using unknown
        exact ⟨rfl, shows.place false player (by rw [nobody]; rfl)⟩
  | markHero name =>
    rw [Filing.perform, Filing.markHero, Roster.Operation.perform, Roster.markHero, shows name]
    cases found : roster.players.find? name with
    | some player =>
      have own := Players.name_of_find? found
      subst own
      exact ⟨rfl, shows.place true player (by rw [found]; rfl)⟩
    | none =>
      dsimp only
      cases created : Player.create name roster.site with
      | error e => exact ⟨rfl, shows⟩
      | ok player =>
        obtain ⟨rfl, -, -⟩ := Player.create_eq_ok created
        exact ⟨rfl, shows.place false (player.flagged true)
          (by rw [Player.name_flagged, found]; rfl)⟩
  | absorb players => exact ⟨rfl, shows.foldl_absorb players⟩

/-- A player is new to both, or to neither. -/
theorem Shows.add (shows : filing.Shows site.players) (player : Player) :
    (filing.add player).1 = (site.addPlayer player).1 ∧
      (filing.add player).2.Shows (site.addPlayer player).2.players := by
  rw [Filing.add, Site.addPlayer]
  cases known : site.players.hasName player.name with
  | true =>
    rw [if_pos ((shows.mem_iff _).2 known)]
    refine ⟨rfl, fun key => ?_⟩
    rw [shows key, Players.find?_add]
    by_cases here : player.name = key
    · obtain ⟨other, found⟩ := Option.isSome_iff_exists.1 (here ▸ known)
      rw [found, Option.some_or]
    · rw [if_neg here, Option.or_none]
  | false =>
    have unknown : player.name ∉ filing := fun inside => by
      rw [(shows.mem_iff _).1 inside] at known
      cases known
    have nobody : site.players.find? player.name = none := by
      simpa [Players.hasName] using known
    rw [if_neg unknown]
    exact ⟨rfl, shows.place false player (by rw [nobody]; rfl)⟩

theorem Shows.addAll (shows : filing.Shows site.players) (order : List Player) :
    (filing.addAll order).1 = (site.addPlayers order).1 ∧
      (filing.addAll order).2.Shows (site.addPlayers order).2.players := by
  rw [Filing.addAll, Site.addPlayers_eq_foldl]
  -- as many have been counted on either side when the next player comes
  generalize 0 = count
  induction order generalizing filing site count with
  | nil => exact ⟨rfl, shows⟩
  | cons player order ih =>
    obtain ⟨told, after⟩ := shows.add player
    rw [List.foldl_cons, List.foldl_cons, tally, tally, told]
    exact ih after _

/-! ## The order in which the players come out -/

theorem dlookup_map_name (players : List Player) (key : Text) :
    (players.map fun player => (⟨player.name, player⟩ : Sigma fun _ : Text => Player)).dlookup key =
      players.find? (·.name == key) := by
  induction players with
  | nil => rfl
  | cons player players ih =>
    rw [List.map_cons]
    by_cases same : player.name = key
    · subst same
      rw [List.dlookup_cons_eq, List.find?_cons_of_pos (by simp)]
    · rw [List.dlookup_cons_ne _ _ fun other => same other.symm,
        List.find?_cons_of_neg (by simpa using same), ih]

/-- A filing that agrees with a set gives up the players of the set, in any order. -/
theorem Shows.lists_iff (shows : filing.Shows players) (order : List Player) :
    filing.Lists order ↔ order.Perm players.toList := by
  let entries := players.toList.map fun player =>
    (⟨player.name, player⟩ : Sigma fun _ : Text => Player)
  have keys : entries.keys = players.names := by
    rw [List.keys, List.map_map]
    rfl
  let listed : AList fun _ : Text => Player :=
    ⟨entries, by rw [List.NodupKeys, keys]; exact players.names_nodup⟩
  have whole : filing = listed.toFinmap := by
    refine Finmap.ext_lookup fun key => ?_
    rw [shows key, Finmap.lookup_toFinmap]
    exact (dlookup_map_name players.toList key).symm
  have values : entries.map Sigma.snd = players.toList := by
    rw [List.map_map]
    exact List.map_id _
  have out : listed.toFinmap.entries = (entries : Multiset (Sigma fun _ : Text => Player)) := rfl
  rw [Lists, whole, out, Multiset.map_coe, values, Multiset.coe_eq_coe, List.perm_comm]

end Filing

/-! ## What can be reached -/

/-- The rosters that can be reached, each with the filing that has come out of the same
operations. -/
inductive Roster.Reached : Filing → Roster → Prop
  | new (site : Text) : Reached ∅ { site }
  | perform {filing : Filing} {roster : Roster} (operation : Operation)
      (reached : Reached filing roster) :
      Reached (filing.perform roster.site operation).2 (operation.perform roster).2
  | erase {filing : Filing} {roster : Roster} (name : Text) (reached : Reached filing roster) :
      Reached (filing.erase name) (roster.erase name).2
  | drain {filing : Filing} {roster : Roster} (site : Site) (reached : Reached filing roster) :
      Reached ∅ (roster.drainInto site).2.2

/-- The sites that can be reached, each with the filing of its players. -/
inductive Site.Reached : Filing → Site → Prop
  | new (name : Text) (games : List StakedGame) : Reached ∅ { name, games }
  | addPlayer {filing : Filing} {site : Site} (player : Player) (reached : Reached filing site) :
      Reached (filing.add player).2 (site.addPlayer player).2
  | takePlayers {filing : Filing} {site : Site} (reached : Reached filing site) :
      Reached ∅ site.takePlayers.2
  | merge {filing other : Filing} {site otherSite whole : Site} {order : List Player}
      (reached : Reached filing site) (reachedOther : Reached other otherSite)
      (lists : other.Lists order) (merged : site.merge otherSite = .ok whole) :
      Reached (filing.addAll order).2 whole
  | drain {filing cache : Filing} {site : Site} {roster : Roster} {order : List Player}
      (reached : Reached filing site) (gathered : Roster.Reached cache roster)
      (lists : cache.Lists order) :
      Reached (filing.addAll order).2 (roster.drainInto site).2.1

variable {filing cache : Filing} {roster : Roster} {site : Site}

theorem Roster.Reached.shows (reached : Reached filing roster) : filing.Shows roster.players := by
  induction reached with
  | new site => exact Filing.shows_empty
  | perform operation _ ih => exact (ih.perform operation).2
  | erase name _ ih => exact ih.erase name
  | drain site _ ih => exact Filing.shows_empty

/-- Adding players in an order in which they come out of a filing is adding them in the order
of their names. -/
theorem Filing.Shows.addAll_of_lists (shows : filing.Shows site.players) {players : Players}
    (given : cache.Shows players) {order : List Player} (lists : cache.Lists order) :
    site.addPlayers order = site.addPlayers players.toList ∧
      (filing.addAll order).1 = (site.addPlayers players.toList).1 ∧
      (filing.addAll order).2.Shows (site.addPlayers players.toList).2.players := by
  have same := Site.addPlayers_of_perm ((given.lists_iff order).1 lists) players.names_nodup site
  have added := shows.addAll order
  rw [same] at added
  exact ⟨same, added⟩

theorem Site.Reached.shows (reached : Reached filing site) : filing.Shows site.players := by
  induction reached with
  | new name games => exact Filing.shows_empty
  | addPlayer player _ ih => exact (ih.add player).2
  | takePlayers _ ih => exact Filing.shows_empty
  | @merge filing other site otherSite whole order _ _ lists merged ih ihOther =>
    have added := (ih.addAll_of_lists ihOther lists).2.2
    rw [Site.merge_eq] at merged
    split at merged
    · cases merged
      rwa [Site.snd_addPlayers] at added
    · cases merged
  | drain _ gathered lists ih => exact (ih.addAll_of_lists gathered.shows lists).2.2

/-- Everybody is filed under the own name, which is never empty, and so once only; and the set
has just the same players. -/
structure Filing.Keeps (filing : Filing) (players : Players) : Prop where
  own : ∀ key player, filing.lookup key = some player → player.name = key ∧ key ≠ []
  distinct : players.names.Nodup
  shows : filing.Shows players

theorem Filing.Shows.keeps {players : Players} (shows : filing.Shows players) :
    filing.Keeps players where
  own := by
    intro key player found
    rw [shows key] at found
    obtain rfl := Players.name_of_find? found
    exact ⟨rfl, player.name_ne_nil⟩
  distinct := players.names_nodup
  shows := shows

/-- What is left where a roster was drained into a site: how many players were told to be new,
the site, and the roster. -/
structure Roster.IsDrained (roster : Roster) (site : Site) (new : Nat) (whole : Site)
    (rest : Roster) : Prop where
  emptied : rest = { roster with players := .empty }
  name : whole.name = site.name
  games : whole.games = site.games
  names : ∀ name, name ∈ whole.players.names ↔
    name ∈ site.players.names ∨ name ∈ roster.players.names
  kept : ∀ name player, site.player? name = some player → whole.player? name = some player
  brought : ∀ name, site.player? name = none →
    whole.player? name = roster.players.find? name
  grown : whole.playerCount = site.playerCount + new

/-- Whoever is known to the site stays as known there, and others are found in the roster. -/
theorem Roster.find?_drainInto (roster : Roster) (site : Site) (name : Text) :
    (roster.drainInto site).2.1.players.find? name =
      (site.players.find? name).or (roster.players.find? name) := by
  show (site.addPlayers roster.players.toList).2.players.find? name = _
  rw [Site.snd_addPlayers]
  exact Players.find?_foldl_add roster.players.toList site.players name

theorem Roster.isDrained_drainInto (roster : Roster) (site : Site) :
    roster.IsDrained site (roster.drainInto site).1 (roster.drainInto site).2.1
      (roster.drainInto site).2.2 where
  emptied := rfl
  name := by
    show (site.addPlayers roster.players.toList).2.name = _
    rw [Site.snd_addPlayers]
  games := by
    show (site.addPlayers roster.players.toList).2.games = _
    rw [Site.snd_addPlayers]
  names := by
    intro name
    rw [Players.mem_names_iff, Players.mem_names_iff, Players.mem_names_iff,
      Roster.find?_drainInto, Option.isSome_or, Bool.or_eq_true]
  kept := by
    intro name player known
    rw [Site.player?] at known ⊢
    rw [Roster.find?_drainInto, known, Option.some_or]
  brought := by
    intro name unknown
    rw [Site.player?] at unknown ⊢
    rw [Roster.find?_drainInto, unknown, Option.none_or]
  grown := Site.playerCount_addPlayers roster.players.toList site

/-- Whatever was done to a roster and to a site before, in both of them everybody is filed under
the own name. Draining the roster empties it and adds to the site just those players whom it
does not have, as they are, and it makes no difference in which order they come out. -/
theorem drain_conserves (gathered : Roster.Reached cache roster)
    (known : Site.Reached filing site) :
    cache.Keeps roster.players ∧ filing.Keeps site.players ∧
    roster.IsDrained site (roster.drainInto site).1 (roster.drainInto site).2.1
      (roster.drainInto site).2.2 ∧
    (∃ order, cache.Lists order) ∧
    ∀ order, cache.Lists order →
      site.addPlayers order = ((roster.drainInto site).1, (roster.drainInto site).2.1) ∧
      (filing.addAll order).1 = (roster.drainInto site).1 ∧
      (filing.addAll order).2.Keeps (roster.drainInto site).2.1.players := by
  have inRoster := gathered.shows
  have inSite := known.shows
  refine ⟨inRoster.keeps, inSite.keeps, roster.isDrained_drainInto site,
    ⟨roster.players.toList, (inRoster.lists_iff _).2 (List.Perm.refl _)⟩, fun order lists => ?_⟩
  obtain ⟨same, told, after⟩ := inSite.addAll_of_lists inRoster lists
  exact ⟨same, told, after.keeps⟩

/-- The site knows an ann about whom it has a comment. The roster has her as the hero, and bob,
who comes out of it before her. -/
theorem drain_conserves_known_hero :
    let ann : Player := { name := "ann", site := "R", comments := "loose",
                          name_ne_nil := by decide, site_ne_nil := by decide }
    let bob : Player := { ann with name := "bob", comments := [], name_ne_nil := by decide }
    let site := ((Site.mk "R" .empty []).addPlayer ann).2
    let roster := ((Roster.Operation.markHero "ann").perform
      ((Roster.Operation.enrol "bob").perform { site := "R" }).2).2
    ∃ filing cache, Roster.Reached cache roster ∧ Site.Reached filing site ∧
      (roster.drainInto site).1 = 1 ∧ (roster.drainInto site).2.2.players.count = 0 ∧
      (roster.drainInto site).2.1.player? "ann" = some ann ∧
      (roster.drainInto site).2.1.player? "bob" = some bob ∧
      site.addPlayers [bob, { ann with comments := [], isHero := true }] =
        (1, (roster.drainInto site).2.1) := by
  intro ann bob site roster
  let cache := ((Filing.perform "R" ∅ (.enrol "bob")).2.perform "R" (.markHero "ann")).2
  have gathered : Roster.Reached cache roster :=
    .perform (.markHero "ann") (.perform (.enrol "bob") (.new "R"))
  have known : Site.Reached ((∅ : Filing).add ann).2 site := .addPlayer ann (.new "R" [])
  obtain ⟨-, -, drained, -, same⟩ := drain_conserves gathered known
  have count : (roster.drainInto site).1 = 1 := by decide
  have order : cache.Lists [bob, { ann with comments := [], isHero := true }] :=
    (gathered.shows.lists_iff _).2 (by decide)
  refine ⟨_, cache, gathered, known, count, ?_, ?_, ?_, ?_⟩
  · rw [drained.emptied]
    rfl
  · exact drained.kept _ _ (by decide)
  · exact (drained.brought _ (by decide)).trans (by decide)
  · rw [← count]
    exact (same _ order).1

end HandHistory
