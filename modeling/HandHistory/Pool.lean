import HandHistory.Event

/-!
# Pools

A pool runs tasks on a number of workers and hands their results back in the
order in which the tasks were submitted, whatever the order in which they come
to their ends. A task may be abandoned; then it has no result, and the pool
records that.

What a pool runs on is not written here. A `Runtime` is the part of a system
that starts workers, gives them the tasks and wakes up whoever waits. It is free
to choose the order of the tasks, and it may fail to start a pool; all that is
relied on beside that are the three laws it comes with.
-/

namespace HandHistory

/-- What a task ends with. -/
inductive Outcome (α : Type) where
  | finished (value : α)
  | abandoned
  deriving Repr

namespace Outcome

variable {α β : Type}

def toOption : Outcome α → Option α
  | .finished value => some value
  | .abandoned => none

def map (f : α → β) : Outcome α → Outcome β
  | .finished value => .finished (f value)
  | .abandoned => .abandoned

end Outcome

/-- A task with what it ends with and the events on the way. -/
abbrev PoolTask (α : Type) := Logged (Outcome α)

/-- What whoever waits for a task gets. -/
inductive Joined (α : Type) where
  | handed (value : α)
  | failed (reason : Text)
  /-- The one who waited is lost as well. -/
  | waiterLost
  deriving Repr

/-- The result of a task that has been waited for. -/
def Joined.result {α : Type} : Joined α → Logged (Option α)
  | .handed value => return some value
  | .failed reason => ⟨none, [.taskFailed reason]⟩
  | .waiterLost => ⟨none, [.waiterLost]⟩

/-- What pools run on. -/
structure Runtime where
  /-- Starts a number of workers, or tells why it cannot. -/
  start : (workers : Nat) → Except Text Unit
  /-- How many workers the system has room for, if it tells. -/
  parallelism? : Option Nat
  /-- The numbers of the tasks in the order in which they come to their ends. -/
  schedule : (workers tasks : Nat) → List Nat
  /-- Waits for a task. -/
  join : {α : Type} → Outcome α → Joined α
  /-- Every task is run once. -/
  schedule_perm : ∀ workers tasks, (schedule workers tasks).Perm (List.range tasks)
  /-- A task that has come to its end hands its value over. -/
  join_finished : ∀ {α : Type} (value : α), join (.finished value) = .handed value
  /-- An abandoned task has no value to hand over. -/
  join_abandoned : ∀ {α : Type} (value : α), join .abandoned ≠ .handed value

namespace Runtime

/-- The runtime that starts every pool and runs the tasks one after the other. -/
def sequential : Runtime where
  start _ := .ok ()
  parallelism? := some 1
  schedule _ tasks := List.range tasks
  join
    | .finished value => .handed value
    | .abandoned => .failed "task panicked"
  schedule_perm _ _ := .refl _
  join_finished _ := rfl
  join_abandoned _ := nofun

variable (runtime : Runtime) {α : Type}

@[simp] theorem value_result_join (outcome : Outcome α) :
    (runtime.join outcome).result.value = outcome.toOption := by
  cases outcome with
  | finished value => rw [runtime.join_finished]; rfl
  | abandoned =>
    have lost := runtime.join_abandoned (α := α)
    cases joined : runtime.join (.abandoned : Outcome α) with
    | handed value => exact absurd joined (lost value)
    | failed reason | waiterLost => rfl

end Runtime

/-- A pool has at least one worker. -/
structure Pool (runtime : Runtime) where
  workers : Nat
  positive : 0 < workers

namespace Pool

variable {runtime : Runtime} {α : Type}

/-- Starts a pool with as many workers as are asked for, and one if none is. -/
def start (runtime : Runtime) (asked : Nat) : Logged (Except PoolError (Pool runtime)) :=
  let workers := max asked 1
  match runtime.start workers with
  | .ok () => ⟨.ok ⟨workers, Nat.le_max_right asked 1⟩, [.poolStarted workers]⟩
  | .error reason => return .error ⟨reason⟩

/-- Tasks in the order in which they come to their ends. -/
def ends (pool : Pool runtime) (tasks : List α) : List α :=
  (runtime.schedule pool.workers tasks.length).filterMap fun number => tasks[number]?

/-- The results of tasks in the order in which they were submitted, and what is
recorded first by the tasks and then by the one who waits for them. -/
def results (pool : Pool runtime) (tasks : List (PoolTask α)) : Logged (List (Option α)) :=
  let joined := tasks.map fun task => (runtime.join task.value).result
  ⟨joined.map Logged.value,
    (pool.ends tasks).flatMap Logged.events ++ joined.flatMap Logged.events⟩

theorem filterMap_range (tasks : List α) :
    (List.range tasks.length).filterMap (fun number => tasks[number]?) = tasks := by
  induction tasks with
  | nil => rfl
  | cons task tasks ih =>
    rw [List.length_cons, List.range_succ_eq_map, List.filterMap_cons, List.filterMap_map]
    exact congrArg (task :: ·) ih

/-- No task is lost, and none is run twice. -/
theorem ends_perm (pool : Pool runtime) (tasks : List α) : (pool.ends tasks).Perm tasks := by
  have run := (runtime.schedule_perm pool.workers tasks.length).filterMap
    fun number => tasks[number]?
  rwa [filterMap_range] at run

theorem value_results (pool : Pool runtime) (tasks : List (PoolTask α)) :
    (pool.results tasks).value = tasks.map fun task => task.value.toOption := by
  simp [results]

end Pool

/-- The pool of all who have no pool of their own. It is started when somebody
asks for it, and how that ended is kept. -/
structure SharedPool (runtime : Runtime) where
  started? : Option (Except PoolError (Pool runtime)) := none

namespace SharedPool

variable {runtime : Runtime}

/-- The shared pool, which is started with the workers asked for unless somebody
has asked before. -/
def getOrStart (asked : Nat) (shared : SharedPool runtime) :
    Logged (Except PoolError (Pool runtime)) × SharedPool runtime :=
  match shared.started? with
  | some started => (return started, shared)
  | none =>
    let started := Pool.start runtime asked
    (started, { started? := some started.value })

/-- Chooses the number of workers of the shared pool; tells whether that was
still possible. -/
def choose (asked : Nat) (shared : SharedPool runtime) : Logged Bool × SharedPool runtime :=
  let (started, after) := shared.getOrStart asked
  (⟨shared.started?.isNone, started.events⟩, after)

/-- How many workers there are if the system does not tell. -/
def defaultWorkers : Nat := 4

/-- The shared pool, with as many workers as the system has room for if nobody
has chosen their number. -/
def get (shared : SharedPool runtime) :
    Logged (Except PoolError (Pool runtime)) × SharedPool runtime :=
  shared.getOrStart (runtime.parallelism?.getD defaultWorkers)

end SharedPool

end HandHistory
