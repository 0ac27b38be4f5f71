import HandHistory.Error
import HandHistory.Numeral

/-!
# Events

Reading is lenient where it can be, and says so: every line it skips, every
amount it makes up and every file it gives up is an event. Events are data and
are returned in the order in which they happened; an event knows its level, its
message and its fields.

A `Logged` value carries the events of the reading that produced it.
-/

namespace HandHistory

inductive Level where
  | debug
  | info
  | warn
  | error
  deriving DecidableEq, Repr

def Level.text : Level → Text
  | .debug => "DEBUG"
  | .info => "INFO"
  | .warn => "WARN"
  | .error => "ERROR"

/-- Something that happened while histories were read. -/
inductive Event where
  | amountDefaulted (token : Text)
  | seatLineSkipped (file line : Text)
  | winnerLineSkipped (file line : Text)
  | actionLineSkipped (file line : Text)
  | noHandFound (file : Text)
  | fileNameRejected (path : Text)
  | fileParsed (path : Text) (hands : Nat)
  | fileWithoutGame (path : Text)
  | fileFailed (path : Text) (cause : ParseError)
  | poolStarted (workers : Nat)
  | taskFailed (reason : Text)
  | waiterLost
  | directoryRejected (dir site : Text)
  | directoryUnreadable (dir reason : Text)
  | noHistoryFiles (dir : Text)
  | loadImpossible (cause : PoolError)
  | loadRequested (site dir : Text)
  | loadingHistories (dir : Text) (files : Nat) (site : Text)
  | historiesLoaded (games hands players : Nat) (stopped : Bool)
  deriving DecidableEq, Repr

namespace Event

def level : Event → Level
  | .amountDefaulted .. | .seatLineSkipped .. | .winnerLineSkipped ..
  | .actionLineSkipped .. | .noHandFound .. | .fileParsed .. | .fileWithoutGame ..
  | .poolStarted .. => .debug
  | .noHistoryFiles .. | .loadRequested .. | .loadingHistories .. | .historiesLoaded .. => .info
  | .fileNameRejected .. | .directoryRejected .. | .directoryUnreadable .. => .warn
  | .fileFailed .. | .taskFailed .. | .waiterLost | .loadImpossible .. => .error

def message : Event → Text
  | .amountDefaulted .. => "unparsable amount defaulted to 0"
  | .seatLineSkipped .. => "seat line skipped"
  | .winnerLineSkipped .. => "winner line for unseated player skipped"
  | .actionLineSkipped .. => "action line for unseated player skipped"
  | .noHandFound .. => "no hand found"
  | .fileNameRejected .. => "file name rejected"
  | .fileParsed .. => "file parsed"
  | .fileWithoutGame .. => "file produced no game"
  | .fileFailed .. => "failed to parse history file"
  | .poolStarted .. => "thread pool started"
  | .taskFailed .. => "pool task failed"
  | .waiterLost => "pool waiter thread panicked"
  | .directoryRejected .. => "history directory rejected"
  | .directoryUnreadable .. => "history directory unreadable"
  | .noHistoryFiles .. => "no history files found"
  | .loadImpossible .. => "cannot load histories"
  | .loadRequested .. => "load requested"
  | .loadingHistories .. => "loading histories"
  | .historiesLoaded .. => "histories loaded"

def flag (value : Bool) : Text := if value then "true" else "false"

/-- The fields in alphabetical order, each with its value as text. -/
def fields : Event → List (Text × Text)
  | .amountDefaulted token => [("token", token)]
  | .seatLineSkipped file line | .winnerLineSkipped file line
  | .actionLineSkipped file line => [("file", file), ("line", line)]
  | .noHandFound file => [("file", file)]
  | .fileNameRejected path | .fileWithoutGame path => [("file", path)]
  | .fileParsed path hands => [("file", path), ("hands", Numeral.write hands)]
  | .fileFailed path cause => [("error", cause.message), ("file", path)]
  | .poolStarted workers => [("workers", Numeral.write workers)]
  | .taskFailed reason => [("error", reason)]
  | .waiterLost => []
  | .directoryRejected dir site => [("dir", dir), ("site", site)]
  | .directoryUnreadable dir reason => [("dir", dir), ("error", reason)]
  | .noHistoryFiles dir => [("dir", dir)]
  | .loadImpossible cause => [("error", cause.message)]
  | .loadRequested site dir => [("dir", dir), ("site", site)]
  | .loadingHistories dir files site =>
    [("dir", dir), ("files", Numeral.write files), ("site", site)]
  | .historiesLoaded games hands players stopped =>
    [("games", Numeral.write games), ("hands", Numeral.write hands),
     ("players", Numeral.write players), ("stopped", flag stopped)]

/-- Whether the event stands for an amount that was read as zero because its
text holds no number. -/
def isLenient : Event → Bool
  | .amountDefaulted _ => true
  | _ => false

/-- How many amounts were made up. -/
def lenientCount (events : List Event) : Nat := events.countP isLenient

end Event

/-- A value and the events of reading it, oldest first. -/
structure Logged (α : Type) where
  value : α
  events : List Event := []
  deriving Repr

namespace Logged

variable {α β : Type}

/-- Reads on from the value of an earlier reading and keeps the events of both. -/
def andThen (earlier : Logged α) (next : α → Logged β) : Logged β :=
  let later := next earlier.value
  ⟨later.value, earlier.events ++ later.events⟩

instance : Monad Logged where
  pure value := ⟨value, []⟩
  bind := andThen

@[simp] theorem events_pure (value : α) : (pure value : Logged α).events = [] := rfl

@[simp] theorem value_pure (value : α) : (pure value : Logged α).value = value := rfl

@[simp] theorem value_bind (earlier : Logged α) (next : α → Logged β) :
    (earlier >>= next).value = (next earlier.value).value := rfl

@[simp] theorem events_bind (earlier : Logged α) (next : α → Logged β) :
    (earlier >>= next).events = earlier.events ++ (next earlier.value).events := rfl

theorem value_map (f : α → β) (earlier : Logged α) : (f <$> earlier).value = f earlier.value :=
  rfl

theorem map_pure (f : α → β) (value : α) : f <$> (pure value : Logged α) = pure (f value) := rfl

end Logged

end HandHistory
