import HandHistory.Batch
import HandHistory.HistoryFile

/-!
# Loading directories

A loader reads all history files of a directory into one site, each by a task of
its pool. It never fails: a directory that does not have the shape of the room,
or that cannot be listed, gives an empty site, and so does a load without a
pool; a file that cannot be read gives nothing. Each of these is an event.

Whoever waits for a load is told how many files there are, of each file that it
has been read, and at last that the load is over. When told the number of files,
the listener may stop the load; then no file is read. A stop lasts until the
next load.
-/

namespace HandHistory

/-- The history files of a directory, in the order of their paths; none if the
directory does not have the shape of the room or cannot be listed. -/
def Room.historyFiles? (room : Room) (tree : FileTree) (dir : Text) :
    Logged (Option (List Text)) :=
  match room.historyDir? tree dir with
  | none => ⟨none, [.directoryRejected dir room.siteName]⟩
  | some history =>
    match tree.list history with
    | .error fault => ⟨none, [.directoryUnreadable history fault.message]⟩
    | .ok names =>
      let paths := names.map (Path.join history)
      return some <|
        (paths.filter fun path => tree.isFile path && room.isHistoryFile path).mergeSort
          Path.inOrder

/-- What the listener of a load is told. -/
inductive Progress where
  | filesCounted (count : Nat)
  | fileProcessed
  | finished
  deriving DecidableEq, Repr

/-- What a load returns and what is told of it. -/
structure LoadReport where
  site : Site
  progress : List Progress
  events : List Event

/-- A loader, with the tasks of the files it is loading in the order of their
paths. A slot is free where its task was dropped, or was never submitted. -/
structure Loader (runtime : Runtime) where
  room : Room
  /-- Its own pool; a loader without one uses the shared pool. -/
  pool? : Option (Pool runtime) := none
  isStopped : Bool := false
  tasks : List (Option (PoolTask (Option Site))) := []

namespace Loader

variable {runtime : Runtime}

/-- The pool that a load runs on. -/
def takePool (shared : SharedPool runtime) (loader : Loader runtime) :
    Logged (Except PoolError (Pool runtime)) × SharedPool runtime :=
  match loader.pool? with
  | some pool => (return .ok pool, shared)
  | none => shared.get

/-- Stops the loader. Every task that is under way comes to its end, and its
result is dropped. -/
def stop (loader : Loader runtime) : Loader runtime :=
  { loader with isStopped := true, tasks := loader.tasks.map fun _ => none }

/-- Gives every file a slot, and a task in it unless the loader is stopped. -/
def dispatch (tree : FileTree) (files : List Text) (loader : Loader runtime) : Loader runtime :=
  { loader with
    tasks := files.map fun path =>
      if loader.isStopped then none else some (HistoryFile.load loader.room tree path) }

/-- Awaits the tasks slot by slot and folds their sites into a batch. A stopped
loader folds in none. -/
def collect (pool : Pool runtime) (loader : Loader runtime) : Logged Batch := do
  let results ← pool.results (loader.tasks.filterMap id)
  let batch := Batch.empty loader.room.siteName
  return if loader.isStopped then batch else batch.addResults results

/-- What the listener is told of a task: a file counts as processed unless its
task was abandoned. -/
def progressOf (task : PoolTask (Option Site)) : List Progress :=
  match task.value with
  | .finished _ => [.fileProcessed]
  | .abandoned => []

/-- Loads files, each by a task of its own, and leaves no task behind. -/
def loadFiles (pool : Pool runtime) (tree : FileTree) (dir : Text) (files : List Text)
    (loader : Loader runtime) : LoadReport × Loader runtime :=
  let loader := loader.dispatch tree files
  let batch := loader.collect pool
  let (players, site) := batch.value.finish
  let report : LoadReport :=
    { site
      progress :=
        .filesCounted files.length ::
          (pool.ends (loader.tasks.filterMap id)).flatMap progressOf ++ [.finished]
      events :=
        .loadingHistories dir files.length loader.room.siteName :: batch.events ++
          [.historiesLoaded batch.value.merged site.handCount players loader.isStopped] }
  (report, { loader with tasks := [] })

/-- The report of a load that reads no file. -/
def reportWithout (events : List Event) (loader : Loader runtime) : LoadReport :=
  { site := { name := loader.room.siteName }, progress := [.finished], events }

/-- Loads a directory. The listener stops the load if `stopsWhenCounted`. A pool
is asked for only once there are files to read. -/
def load (tree : FileTree) (dir : Text) (stopsWhenCounted : Bool) (shared : SharedPool runtime)
    (loader : Loader runtime) : LoadReport × Loader runtime × SharedPool runtime :=
  let loader := { loader with isStopped := false }
  let files? := loader.room.historyFiles? tree dir
  match files?.value with
  | none => (loader.reportWithout files?.events, loader, shared)
  | some [] => (loader.reportWithout (files?.events ++ [.noHistoryFiles dir]), loader, shared)
  | some files =>
    let (pool?, shared) := loader.takePool shared
    match pool?.value with
    | .error cause =>
      (loader.reportWithout (files?.events ++ pool?.events ++ [.loadImpossible cause]), loader,
        shared)
    | .ok pool =>
      let loader := if stopsWhenCounted then loader.stop else loader
      let (report, loader) := loader.loadFiles pool tree dir files
      ({ report with events := files?.events ++ pool?.events ++ report.events }, loader, shared)

/-- Reads one file outside the pool. The loader is as before. -/
def loadFile (tree : FileTree) (path : Text) (loader : Loader runtime) : PoolTask (Option Site) :=
  HistoryFile.load loader.room tree path

end Loader

end HandHistory
