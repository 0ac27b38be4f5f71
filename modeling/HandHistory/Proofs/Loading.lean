import HandHistory.Loader
import HandHistory.Proofs.Players
import Mathlib

/-!
# The sum of the files

Loading a directory gives the sum of the sites of its files, in the order of
their paths: `Site.IsSumOf`. The games are put one behind the other; the players
come together by name, and whoever is a hero in one file is a hero in the sum.

What a loader has done before does not matter. A load begins by lowering the flag
that an earlier stop has raised, and gives every file a new slot, so that its
report depends on its room and its pool alone: `Loader.fst_load`. What the pool runs
on does not matter either, as long as there is a pool (`Loader.hasPool`).
-/

namespace HandHistory

/-- A site that holds what its parts hold: their games in order, their players by
name, and their heroes. -/
structure Site.IsSumOf (parts : List Site) (site : Site) : Prop where
  cashGames : site.cashGames = parts.flatMap Site.cashGames
  tournaments : site.tournaments = parts.flatMap Site.tournaments
  names : ∀ name, name ∈ site.players.names ↔ ∃ part ∈ parts, name ∈ part.players.names
  heroes : ∀ name, site.players.Hero name ↔ ∃ part ∈ parts, part.players.Hero name
  handCount : site.handCount = (parts.map Site.handCount).sum
  actionCount : site.actionCount = (parts.map Site.actionCount).sum

/-- A count over the games of all parts is the sum of the counts of the parts. -/
theorem Site.sum_games (parts : List Site) (count : StakedGame → Nat) :
    ((parts.flatMap Site.games).map count).sum =
      (parts.map fun part => (part.games.map count).sum).sum := by
  induction parts with
  | nil => rfl
  | cons part parts ih => simp [ih]

/-! ## Batches -/

namespace Batch

variable {batch : Batch} {parts : List Site}

/-- The site of one file of the same room joins the batch: its games at once, its
players by way of the roster. -/
theorem addSite_of_name {part : Site} (same : part.name = batch.site.name) :
    batch.addSite part =
      { site := { batch.site with games := batch.site.games ++ part.games }
        roster := batch.roster.absorb part.players.toList
        merged := batch.merged + 1 } := by
  simp [addSite, Site.takePlayers, Site.merge, same, Site.addPlayers, Players.empty]

theorem foldl_addSite (same : ∀ part ∈ parts, part.name = batch.site.name) :
    parts.foldl addSite batch =
      { site := { batch.site with games := batch.site.games ++ parts.flatMap Site.games }
        roster := batch.roster.absorb (parts.flatMap fun part => part.players.toList)
        merged := batch.merged + parts.length } := by
  induction parts generalizing batch with
  | nil => simp [Roster.absorb]
  | cons part parts ih =>
    have first := addSite_of_name (same part List.mem_cons_self)
    have others : ∀ other ∈ parts, other.name = (batch.addSite part).site.name := by
      rw [first]
      intro other hother
      exact same other (List.mem_cons_of_mem _ hother)
    rw [List.foldl_cons, ih others, first]
    simp [Roster.absorb, List.foldl_append, Nat.add_assoc, Nat.add_comm 1]

/-- What is known of the files of one room once they are all in. -/
theorem finish_foldl_addSite {name : Text} (same : ∀ part ∈ parts, part.name = name) :
    (parts.foldl addSite (empty name)).finish.2 =
      { name
        players := (parts.flatMap fun part => part.players.toList).foldl
          (fun known player => known.absorb player) .empty
        games := parts.flatMap Site.games } := by
  rw [foldl_addSite same]
  exact Roster.site_drainInto rfl _

theorem finish_isSumOf {name : Text} (same : ∀ part ∈ parts, part.name = name) :
    (parts.foldl addSite (empty name)).finish.2.IsSumOf parts := by
  rw [finish_foldl_addSite same]
  constructor
  · exact List.filter_flatMap
  · exact List.filter_flatMap
  · intro other
    rw [Players.mem_names_foldl_absorb]
    constructor
    · rintro (⟨player, hplayer, rfl⟩ | impossible)
      · obtain ⟨part, hpart, inPart⟩ := List.mem_flatMap.1 hplayer
        exact ⟨part, hpart, List.mem_map_of_mem inPart⟩
      · cases impossible
    · rintro ⟨part, hpart, hname⟩
      obtain ⟨player, inPart, rfl⟩ := List.mem_map.1 hname
      exact Or.inl ⟨player, List.mem_flatMap.2 ⟨part, hpart, inPart⟩, rfl⟩
  · intro other
    rw [Players.hero_foldl_absorb]
    constructor
    · rintro (⟨player, hplayer, same, hero⟩ | ⟨_, ⟨⟩, _⟩)
      obtain ⟨part, hpart, inPart⟩ := List.mem_flatMap.1 hplayer
      exact ⟨part, hpart, Players.hero_iff_mem.2 ⟨player, inPart, same, hero⟩⟩
    · rintro ⟨part, hpart, hero⟩
      obtain ⟨player, inPart, same, hero⟩ := Players.hero_iff_mem.1 hero
      exact Or.inl ⟨player, List.mem_flatMap.2 ⟨part, hpart, inPart⟩, same, hero⟩
  · exact Site.sum_games parts _
  · exact Site.sum_games parts _

end Batch

/-! ## Single files -/

namespace HistoryFile

/-- The site of a file; none if the file cannot be read or holds no game. -/
def site? (room : Room) (tree : FileTree) (path : Text) : Option Site :=
  (load room tree path).value.toOption.join

theorem site?_eq_some_iff {room : Room} {tree : FileTree} {path : Text} {site : Site} :
    site? room tree path = some site ↔ (load room tree path).value = .finished (some site) := by
  rw [site?]
  cases (load room tree path).value <;> simp [Outcome.toOption]

/-- A file with a game is one whose lines are read into it. -/
theorem exists_of_read {room : Room} {tree : FileTree} {path : Text} {roster : Roster}
    {game : StakedGame} (made : (read room tree path roster).game = .ok (some game)) :
    ∃ bytes after, tree.read path = .ok bytes ∧
      (History.readGame room (Path.stem path)).runFrom
        { cursor := .ofText (Path.shortName path) (Text.Utf8.decode bytes), roster } =
          (.ok (some game), after) ∧
      (read room tree path roster).roster = after.roster := by
  unfold read at made ⊢
  dsimp only at made ⊢
  by_cases accepted : (!room.acceptsStem (Path.stem path)) = true
  · rw [if_pos accepted] at made
    cases made
  · rw [if_neg accepted] at made ⊢
    cases bytesRead : tree.read path with
    | error fault =>
      rw [bytesRead] at made
      cases made
    | ok bytes =>
      rw [bytesRead] at made
      exact ⟨bytes, _, rfl, Prod.ext made rfl, rfl⟩

theorem exists_of_site? {room : Room} {tree : FileTree} {path : Text} {site : Site}
    (given : site? room tree path = some site) :
    ∃ bytes game after, tree.read path = .ok bytes ∧
      (History.readGame room (Path.stem path)).runFrom
        { cursor := .ofText (Path.shortName path) (Text.Utf8.decode bytes)
          roster := { site := room.siteName } } = (.ok (some game), after) ∧
      site = siteOf room game after.roster := by
  unfold site? load at given
  dsimp only at given
  split at given
  · next game made =>
    cases given
    obtain ⟨bytes, after, bytesRead, run, same⟩ := exists_of_read made
    exact ⟨bytes, game, after, bytesRead, run, congrArg (siteOf room game) same⟩
  · cases given
  · split at given <;> cases given

/-- The site of one game has the players of its roster, just as they are. -/
theorem siteOf_eq (room : Room) (game : StakedGame) (roster : Roster) :
    siteOf room game roster =
      { name := room.siteName, players := roster.players, games := [game] } :=
  Roster.site_drainInto rfl roster

theorem name_of_site? {room : Room} {tree : FileTree} {path : Text} {site : Site}
    (given : site? room tree path = some site) : site.name = room.siteName := by
  obtain ⟨bytes, game, after, -, -, rfl⟩ := exists_of_site? given
  rw [siteOf_eq]

/-- Only the bytes of a file matter. -/
theorem load_congr {room : Room} {tree other : FileTree} {path : Text}
    (same : other.find path = tree.find path) : load room other path = load room tree path := by
  have bytes : other.read path = tree.read path := by
    unfold FileTree.read
    rw [same]
  unfold load read
  rw [bytes]

end HistoryFile

/-! ## Loaders -/

/-- What may be asked of a loader. A load finds the shared pool as others have left it. -/
inductive LoaderStep (runtime : Runtime) where
  | load (tree : FileTree) (dir : Text) (stopsWhenCounted : Bool) (shared : SharedPool runtime)
  | stop
  | loadFile (tree : FileTree) (path : Text)

namespace Loader

variable {runtime : Runtime}

/-- The loader after a step; reading a single file leaves it as it is. -/
def step (loader : Loader runtime) : LoaderStep runtime → Loader runtime
  | .load tree dir stopsWhenCounted shared => (loader.load tree dir stopsWhenCounted shared).2.1
  | .stop => loader.stop
  | .loadFile .. => loader

/-- A new loader of a room, with a pool of its own or without one, after a number of
steps. -/
def after (room : Room) (pool? : Option (Pool runtime)) (steps : List (LoaderStep runtime)) :
    Loader runtime :=
  steps.foldl step { room, pool? }

/-- Earlier tasks have no part in where a loader takes its pool. -/
theorem takePool_of_tasks (loader : Loader runtime)
    (tasks : List (Option (PoolTask (Option Site)))) (shared : SharedPool runtime) :
    takePool shared { loader with isStopped := false, tasks } = loader.takePool shared := rfl

/-- Whether a load has a pool to run on. -/
def hasPool (shared : SharedPool runtime) (loader : Loader runtime) : Bool :=
  (loader.takePool shared).1.value.isOk

theorem hasPool_iff {loader : Loader runtime} {shared : SharedPool runtime} :
    loader.hasPool shared = true ↔ ∃ pool, (loader.takePool shared).1.value = .ok pool := by
  rw [hasPool]
  cases (loader.takePool shared).1.value <;> simp [Except.isOk, Except.toBool]

/-- What no step changes. -/
structure SameLoader (before after : Loader runtime) : Prop where
  room : after.room = before.room
  pool? : after.pool? = before.pool?

theorem sameLoader_load (loader : Loader runtime) (tree : FileTree) (dir : Text)
    (stopsWhenCounted : Bool) (shared : SharedPool runtime) :
    SameLoader loader (loader.load tree dir stopsWhenCounted shared).2.1 := by
  simp only [load]
  split
  · exact ⟨rfl, rfl⟩
  · exact ⟨rfl, rfl⟩
  · split
    · exact ⟨rfl, rfl⟩
    · cases stopsWhenCounted <;> exact ⟨rfl, rfl⟩

theorem sameLoader_step (loader : Loader runtime) (next : LoaderStep runtime) :
    SameLoader loader (loader.step next) := by
  cases next with
  | load tree dir stopsWhenCounted shared =>
    exact sameLoader_load loader tree dir stopsWhenCounted shared
  | stop => exact ⟨rfl, rfl⟩
  | loadFile tree path => exact ⟨rfl, rfl⟩

theorem sameLoader_after (room : Room) (pool? : Option (Pool runtime))
    (steps : List (LoaderStep runtime)) : SameLoader { room, pool? } (after room pool? steps) := by
  have general : ∀ loader : Loader runtime, SameLoader loader (steps.foldl step loader) := by
    induction steps with
    | nil => exact fun loader => ⟨rfl, rfl⟩
    | cons next steps ih =>
      intro loader
      have first := sameLoader_step loader next
      have others := ih (loader.step next)
      exact ⟨others.room.trans first.room, others.pool?.trans first.pool?⟩
  exact general { room, pool? }

theorem SameLoader.hasPool {before after : Loader runtime} (same : SameLoader before after)
    (shared : SharedPool runtime) : after.hasPool shared = before.hasPool shared := by
  rw [Loader.hasPool, Loader.hasPool, takePool, takePool, same.pool?]

/-- The files that a load reads: none without a pool. -/
def files (tree : FileTree) (dir : Text) (shared : SharedPool runtime) (loader : Loader runtime) :
    List Text :=
  match (loader.takePool shared).1.value with
  | .ok _ => (loader.room.historyFiles? tree dir).value.getD []
  | .error _ => []

theorem files_of_hasPool {loader : Loader runtime} {shared : SharedPool runtime}
    (has : loader.hasPool shared = true) (tree : FileTree) (dir : Text) :
    loader.files tree dir shared = (loader.room.historyFiles? tree dir).value.getD [] := by
  obtain ⟨pool, taken⟩ := hasPool_iff.1 has
  rw [files, taken]

theorem files_of_not_hasPool {loader : Loader runtime} {shared : SharedPool runtime}
    (hasNone : loader.hasPool shared = false) (tree : FileTree) (dir : Text) :
    loader.files tree dir shared = [] := by
  rw [files]
  split
  · next pool taken =>
    rw [hasPool_iff.2 ⟨pool, taken⟩] at hasNone
    cases hasNone
  · rfl

/-- The loader that reads the files of a load. -/
def running (stopsWhenCounted : Bool) (loader : Loader runtime) : Loader runtime :=
  let loader := { loader with isStopped := false }
  if stopsWhenCounted then loader.stop else loader

/-- A load has no file to read and says so, or reads its files on the pool that it has. -/
theorem load_cases (loader : Loader runtime) (tree : FileTree) (dir : Text)
    (stopsWhenCounted : Bool) (shared : SharedPool runtime) :
    (loader.files tree dir shared = [] ∧
      ∃ events, (loader.load tree dir stopsWhenCounted shared).1 = loader.reportWithout events) ∨
    (loader.files tree dir shared ≠ [] ∧ ∃ pool events,
      (loader.load tree dir stopsWhenCounted shared).1 =
        { ((loader.running stopsWhenCounted).loadFiles pool tree dir
            (loader.files tree dir shared)).1 with events }) := by
  simp only [files, load, takePool_of_tasks]
  cases (loader.room.historyFiles? tree dir).value with
  | none => exact Or.inl ⟨by split <;> rfl, _, rfl⟩
  | some files =>
    cases files with
    | nil => exact Or.inl ⟨by split <;> rfl, _, rfl⟩
    | cons path paths =>
      dsimp only
      cases (loader.takePool shared).1.value with
      | error cause => exact Or.inl ⟨rfl, _, rfl⟩
      | ok pool => exact Or.inr ⟨List.cons_ne_nil path paths, pool, _, rfl⟩

/-- The report of a load depends on nothing that was done before. -/
theorem fst_load (loader : Loader runtime) (tree : FileTree) (dir : Text)
    (stopsWhenCounted : Bool) (shared : SharedPool runtime) :
    (loader.load tree dir stopsWhenCounted shared).1 =
      (({ room := loader.room, pool? := loader.pool? } : Loader runtime).load tree dir
        stopsWhenCounted shared).1 := by
  simp only [load, takePool_of_tasks]
  cases (loader.room.historyFiles? tree dir).value with
  | none => rfl
  | some files =>
    cases files with
    | nil => rfl
    | cons path paths =>
      dsimp only
      cases (loader.takePool shared).1.value with
      | error cause => rfl
      | ok pool => cases stopsWhenCounted <;> rfl

/-- A loader that is not stopped gives every file its task. -/
theorem tasks_dispatch {loader : Loader runtime} (running : loader.isStopped = false)
    (tree : FileTree) (files : List Text) :
    (loader.dispatch tree files).tasks.filterMap id =
      files.map (HistoryFile.load loader.room tree) := by
  simp [dispatch, running]

/-- What an unstopped loader collects of the files it has dispatched. -/
theorem value_collect {loader : Loader runtime} (running : loader.isStopped = false)
    (pool : Pool runtime) (tree : FileTree) (files : List Text) :
    ((loader.dispatch tree files).collect pool).value =
      (files.filterMap (HistoryFile.site? loader.room tree)).foldl Batch.addSite
        (Batch.empty loader.room.siteName) := by
  rw [collect]
  rw [tasks_dispatch running, Logged.value_bind, Pool.value_results]
  show (if loader.isStopped then _ else _) = _
  rw [running, if_neg Bool.false_ne_true, Batch.addResults, List.map_map, List.filterMap_map]
  rfl

/-- A stopped loader collects nothing. -/
theorem value_collect_of_stopped {loader : Loader runtime} (stopped : loader.isStopped = true)
    (pool : Pool runtime) (tree : FileTree) (files : List Text) :
    ((loader.dispatch tree files).collect pool).value = Batch.empty loader.room.siteName := by
  rw [collect]
  rw [Logged.value_bind]
  show (if loader.isStopped then _ else _) = _
  rw [stopped, if_pos rfl]
  rfl

end Loader

/-! ## Directories -/

namespace Room

/-- The paths of the history files of a directory that holds histories. -/
def eligible (room : Room) (tree : FileTree) (history : Text) : List Text :=
  ((tree.names history).map (Path.join history)).filter fun path =>
    tree.isFile path && room.isHistoryFile path

/-- These paths in order. -/
def listing (room : Room) (tree : FileTree) (history : Text) : List Text :=
  (room.eligible tree history).mergeSort Path.inOrder

theorem listing_perm (room : Room) (tree : FileTree) (history : Text) :
    (room.listing tree history).Perm (room.eligible tree history) :=
  List.mergeSort_perm _ _

theorem pairwise_sorted (paths : List Text) :
    (paths.mergeSort Path.inOrder).Pairwise fun a b => ¬ b < a := by
  have inOrder : ∀ a b : Text, Path.inOrder a b = true ↔ ¬ b < a := by simp [Path.inOrder]
  have transitive : ∀ a b c : Text, Path.inOrder a b = true → Path.inOrder b c = true →
      Path.inOrder a c = true := by
    intro a b c hab hbc
    rw [inOrder] at hab hbc ⊢
    exact List.le_trans hab hbc
  have total : ∀ a b : Text, (Path.inOrder a b || Path.inOrder b a) = true := by
    intro a b
    rw [Bool.or_eq_true, inOrder, inOrder]
    exact List.le_total a b
  exact (List.pairwise_mergeSort transitive total paths).imp (inOrder _ _).1

/-- What is taken of the paths in order is unchanged if paths that give nothing
are left out before the sorting. -/
theorem filterMap_sorted {α : Type} (take : Text → Option α) (paths : List Text) :
    (paths.mergeSort Path.inOrder).filterMap take =
      ((paths.filter fun path => (take path).isSome).mergeSort Path.inOrder).filterMap take := by
  have perm : ((paths.mergeSort Path.inOrder).filter fun path => (take path).isSome).Perm
      ((paths.filter fun path => (take path).isSome).mergeSort Path.inOrder) :=
    ((List.mergeSort_perm _ _).filter _).trans (List.mergeSort_perm _ _).symm
  have same := perm.eq_of_pairwise (fun a b _ _ hab hba => Players.eq_of_not_lt hba hab)
    ((pairwise_sorted paths).filter _) (pairwise_sorted _)
  rw [← same, List.filterMap_filter]
  congr 1
  funext path
  cases take path <;> rfl

/-- A directory that cannot be listed has no history files. -/
theorem getD_historyFiles? {room : Room} {tree : FileTree} {dir history : Text}
    (shape : room.historyDir? tree dir = some history) :
    (room.historyFiles? tree dir).value.getD [] = room.listing tree history := by
  rw [historyFiles?, shape, listing, eligible, FileTree.names]
  dsimp only
  cases tree.list history with
  | error fault => simp
  | ok names => rfl

theorem getD_historyFiles?_of_rejected {room : Room} {tree : FileTree} {dir : Text}
    (shape : room.historyDir? tree dir = none) :
    (room.historyFiles? tree dir).value.getD [] = [] := by
  rw [historyFiles?, shape]
  rfl

end Room

/-- A tree that has lost files of a directory: the directory holds the names that
are left, and what is left is found as before. -/
structure FileTree.Loses (history : Text) (lost : Text → Bool) (tree smaller : FileTree) :
    Prop where
  names_eq : smaller.names history = (tree.names history).filter fun name => !lost name
  find_eq : ∀ name ∈ tree.names history, lost name = false →
    smaller.find (Path.join history name) = tree.find (Path.join history name)

/-- Files without a site may be lost: the sites of those that are left are the same. -/
theorem HistoryFile.sites_of_loses {room : Room} {tree smaller : FileTree} {history : Text}
    {lost : Text → Bool} (loses : tree.Loses history lost smaller)
    (useless : ∀ name ∈ tree.names history, lost name = true →
      site? room tree (Path.join history name) = none) :
    (room.listing smaller history).filterMap (site? room smaller) =
      (room.listing tree history).filterMap (site? room tree) := by
  have kept : ∀ name ∈ tree.names history, lost name = false →
      smaller.isFile (Path.join history name) = tree.isFile (Path.join history name) ∧
      site? room smaller (Path.join history name) = site? room tree (Path.join history name) := by
    intro name hname stays
    have same := loses.find_eq name hname stays
    constructor
    · unfold FileTree.isFile
      rw [same]
    · unfold site?
      rw [load_congr same]
  -- the names whose files give a site are the same in both trees
  let useful (files : FileTree) (name : Text) : Bool :=
    (site? room files (Path.join history name)).isSome &&
      (files.isFile (Path.join history name) && room.isHistoryFile (Path.join history name))
  have cut : ∀ files : FileTree,
      (room.eligible files history).filter (fun path => (site? room files path).isSome) =
        ((files.names history).filter (useful files)).map (Path.join history) := by
    intro files
    rw [Room.eligible, List.filter_filter, List.filter_map]
    rfl
  have sameNames : (smaller.names history).filter (useful smaller) =
      (tree.names history).filter (useful tree) := by
    rw [loses.names_eq, List.filter_filter]
    apply List.filter_congr
    intro name hname
    cases stays : lost name with
    | true => simp [useful, useless name hname stays]
    | false =>
      obtain ⟨isFile, site⟩ := kept name hname stays
      simp [useful, isFile, site]
  rw [Room.listing, Room.listing, Room.filterMap_sorted (site? room smaller),
    Room.filterMap_sorted (site? room tree), cut, cut, sameNames]
  apply List.filterMap_congr
  intro path hpath
  obtain ⟨name, hname, rfl⟩ := List.mem_map.1 (List.mem_mergeSort.1 hpath)
  obtain ⟨present, isUseful⟩ := List.mem_filter.1 hname
  have stays : lost name = false := by
    by_contra gone
    rw [Bool.not_eq_false] at gone
    simp [useful, useless name present gone] at isUseful
  exact (kept name present stays).2

namespace Loader

variable {runtime : Runtime}

/-- The site of a load is that of the files it reads. -/
theorem site_load (loader : Loader runtime) (tree : FileTree) (dir : Text)
    (shared : SharedPool runtime) :
    (loader.load tree dir false shared).1.site =
      (((loader.files tree dir shared).filterMap
        (HistoryFile.site? loader.room tree)).foldl Batch.addSite
          (Batch.empty loader.room.siteName)).finish.2 := by
  obtain ⟨nothing, events, report⟩ | ⟨-, pool, events, report⟩ :=
    loader.load_cases tree dir false shared
  · rw [report, nothing]
    rfl
  · rw [report]
    exact congrArg (fun batch : Batch => batch.finish.2)
      (@value_collect runtime (loader.running false) rfl pool tree (loader.files tree dir shared))

/-- A load that is stopped as soon as its files are counted gives the empty site. -/
theorem site_load_stopped (loader : Loader runtime) (tree : FileTree) (dir : Text)
    (shared : SharedPool runtime) :
    (loader.load tree dir true shared).1.site = { name := loader.room.siteName } := by
  obtain ⟨-, events, report⟩ | ⟨-, pool, events, report⟩ := loader.load_cases tree dir true shared
  · rw [report]
    rfl
  · rw [report]
    exact congrArg (fun batch : Batch => batch.finish.2)
      (@value_collect_of_stopped runtime (loader.running true) rfl pool tree
        (loader.files tree dir shared))

/-- A load has a pool if pools can be started and the shared one has not failed before. -/
theorem hasPool_of_start (starts : ∀ workers, runtime.start workers = .ok ())
    {shared : SharedPool runtime} (sound : ∀ cause, shared.started? ≠ some (.error cause))
    (loader : Loader runtime) : loader.hasPool shared = true := by
  rw [hasPool_iff, takePool]
  cases loader.pool? with
  | some pool => exact ⟨pool, rfl⟩
  | none =>
    dsimp only
    rw [SharedPool.get, SharedPool.getOrStart]
    cases earlier : shared.started? with
    | none =>
      dsimp only
      rw [Pool.start, starts]
      exact ⟨_, rfl⟩
    | some started =>
      cases started with
      | error cause => exact absurd earlier (sound cause)
      | ok pool => exact ⟨pool, rfl⟩

/-- Reading a single file depends on nothing that was done before. -/
theorem loadFile_after (room : Room) (pool? : Option (Pool runtime))
    (steps : List (LoaderStep runtime)) (tree : FileTree) (path : Text) :
    (after room pool? steps).loadFile tree path = HistoryFile.load room tree path := by
  rw [loadFile, (sameLoader_after room pool? steps).room]

/-! ### Directories of the room's shape -/

section Shape

variable {loader : Loader runtime} {shared : SharedPool runtime} {tree : FileTree}
  {dir history : Text}

/-- On a pool, the files of the directory are read in the order of their paths. -/
theorem files_of_shape (has : loader.hasPool shared = true)
    (shape : loader.room.historyDir? tree dir = some history) :
    loader.files tree dir shared = loader.room.listing tree history := by
  rw [files_of_hasPool has, Room.getD_historyFiles? shape]

theorem isSumOf_load (has : loader.hasPool shared = true)
    (shape : loader.room.historyDir? tree dir = some history) :
    (loader.load tree dir false shared).1.site.IsSumOf
      ((loader.room.listing tree history).filterMap (HistoryFile.site? loader.room tree)) := by
  rw [site_load, files_of_shape has shape]
  refine Batch.finish_isSumOf fun part hpart => ?_
  obtain ⟨path, -, given⟩ := List.mem_filterMap.1 hpart
  exact HistoryFile.name_of_site? given

/-- Files without a site may be lost before a load. -/
theorem site_load_of_loses (has : loader.hasPool shared = true)
    (shape : loader.room.historyDir? tree dir = some history) {smaller : FileTree}
    (smallerShape : loader.room.historyDir? smaller dir = some history) {lost : Text → Bool}
    (loses : tree.Loses history lost smaller)
    (useless : ∀ name ∈ tree.names history, lost name = true →
      HistoryFile.site? loader.room tree (Path.join history name) = none) :
    (loader.load smaller dir false shared).1.site = (loader.load tree dir false shared).1.site := by
  rw [site_load, site_load, files_of_shape has smallerShape, files_of_shape has shape,
    HistoryFile.sites_of_loses loses useless]

end Shape

/-- Without a pool there is nothing but the end of the load. -/
theorem load_of_not_hasPool {loader : Loader runtime} {shared : SharedPool runtime}
    (hasNone : loader.hasPool shared = false) (tree : FileTree) (dir : Text) :
    (loader.load tree dir false shared).1.site = { name := loader.room.siteName } ∧
      (loader.load tree dir false shared).1.progress = [.finished] := by
  obtain ⟨-, events, report⟩ | ⟨some, -⟩ := loader.load_cases tree dir false shared
  · rw [report]
    exact ⟨rfl, rfl⟩
  · exact absurd (files_of_not_hasPool hasNone tree dir) some

/-- Loading a directory of the room's shape on a pool gives the sum of its files in the
order of their paths, whatever the loader has done before and whatever the pool runs on.
Files without a site may as well be missing. Without a pool there is nothing but the end
of the load. A load that is stopped when its files are counted gives the empty site, and
costs the next load nothing. -/
theorem load_isSumOf (room : Room) (pool? : Option (Pool runtime))
    (steps : List (LoaderStep runtime)) {tree : FileTree} {dir history : Text}
    (shape : room.historyDir? tree dir = some history) (shared : SharedPool runtime) :
    let loader := after room pool? steps
    let sites := (room.listing tree history).filterMap fun path =>
      (loader.loadFile tree path).value.toOption.join
    ((room.listing tree history).Pairwise (fun a b => ¬ b < a) ∧
      (room.listing tree history).Perm (room.eligible tree history)) ∧
    (loader.hasPool shared = true →
      (loader.load tree dir false shared).1.site.IsSumOf sites ∧
      ∀ lost smaller, room.historyDir? smaller dir = some history →
        tree.Loses history lost smaller →
        (∀ name ∈ tree.names history, lost name = true →
          (loader.loadFile tree (Path.join history name)).value.toOption.join = none) →
        (loader.load smaller dir false shared).1.site =
          (loader.load tree dir false shared).1.site) ∧
    (loader.hasPool shared = false →
      (loader.load tree dir false shared).1.site = { name := room.siteName } ∧
      (loader.load tree dir false shared).1.progress = [.finished]) ∧
    (loader.load tree dir true shared).1.site = { name := room.siteName } ∧
    ∀ later, loader.hasPool later = true →
      ((loader.load tree dir true shared).2.1.load tree dir false later).1.site.IsSumOf sites := by
  have sameRoom : (after room pool? steps).room = room := (sameLoader_after room pool? steps).room
  -- of what the loader has done before, only its room is left
  generalize after room pool? steps = loader at sameRoom ⊢
  subst sameRoom
  intro _ sites
  refine ⟨⟨Room.pairwise_sorted _, loader.room.listing_perm tree history⟩,
    fun has => ⟨isSumOf_load has shape, ?_⟩, fun hasNone => load_of_not_hasPool hasNone tree dir,
    loader.site_load_stopped tree dir shared, fun later has => ?_⟩
  · intro lost smaller smallerShape loses useless
    exact site_load_of_loses has shape smallerShape loses useless
  · have same := sameLoader_load loader tree dir true shared
    have sum := isSumOf_load ((same.hasPool later).trans has)
      ((congrArg (fun room => room.historyDir? tree dir) same.room).trans shape)
    rwa [same.room] at sum

/-- A directory with one hand in one file and none in another, loaded after a stop. -/
theorem load_isSumOf_of_two_files :
    let text : Text := "PokerStars Hand #1: Hold'em No Limit ($1/$2) - 2014/10/31 0:45:01\n" ++
      "Table 'A' 9-max\nSeat 1: ann ($5)\n"
    let file : FileNode := .file (text.map fun c => c.toNat.toUInt8)
    let tree : FileTree := { root := .dir [("d".toList, .dir
      [("a.txt".toList, file), ("b.txt".toList, .file [])])] }
    let smaller : FileTree := { root := .dir [("d".toList, .dir [("a.txt".toList, file)])] }
    let loader : Loader .sequential :=
      after .pokerStars none [.stop, .load tree "d" true {}, .loadFile tree "d/a.txt"]
    (loader.load tree "d" false {}).1.site.handCount = 1 ∧
    (loader.load tree "d" false {}).1.site.IsSumOf
      ((Room.pokerStars.listing tree "d").filterMap fun path =>
        (loader.loadFile tree path).value.toOption.join) ∧
    (loader.load smaller "d" false {}).1.site = (loader.load tree "d" false {}).1.site := by
  intro text file tree smaller loader
  have shape : Room.pokerStars.historyDir? tree "d" = some "d".toList := by decide +kernel
  have smallerShape : Room.pokerStars.historyDir? smaller "d" = some "d".toList := by decide +kernel
  have has : loader.hasPool {} = true := loader.hasPool_of_start (fun _ => rfl) fun _ => by simp
  obtain ⟨-, onPool, -⟩ := load_isSumOf .pokerStars none
    [.stop, .load tree "d" true {}, .loadFile tree "d/a.txt"] shape {}
  obtain ⟨sum, fewer⟩ := onPool has
  have paths : Room.pokerStars.eligible tree "d" = ["d/a.txt".toList, "d/b.txt".toList] := by
    decide +kernel
  have listed : Room.pokerStars.listing tree "d" = ["d/a.txt".toList, "d/b.txt".toList] := by
    rw [Room.listing, paths]
    exact List.mergeSort_of_pairwise (by decide)
  refine ⟨?_, sum, ?_⟩
  · rw [sum.handCount, listed]
    simp only [loadFile_after]
    decide +kernel
  · refine fewer (fun name => name == "b.txt".toList) smaller smallerShape
      ⟨by decide +kernel, ?_⟩ ?_
    · intro name hname stays
      have only : name = "a.txt".toList := by
        have names : tree.names "d" = ["a.txt".toList, "b.txt".toList] := by decide +kernel
        rw [names, List.mem_cons, List.mem_singleton] at hname
        exact hname.resolve_right (beq_eq_false_iff_ne.1 stays)
      rw [only]
      rfl
    · intro name _ gone
      rw [loadFile_after, beq_iff_eq.1 gone]
      have nothing : ((HistoryFile.load .pokerStars tree "d/b.txt").value.toOption.join).isSome =
          false := by decide +kernel
      exact Option.isNone_iff_eq_none.1 (Option.isSome_eq_false_iff.1 nothing)

end Loader

end HandHistory
