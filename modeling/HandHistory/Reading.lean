import HandHistory.Cursor
import HandHistory.Event
import HandHistory.Roster

/-!
# Reading

To read is to move a cursor, to enrol players and to record events, and
possibly to stop with an error. An error ends the reading but undoes nothing:
the cursor stays where it is, players stay enrolled, and events stay recorded.
So the session is the state of the monad and the error lies on top of it.
-/

namespace HandHistory

/-- What reading a file leaves behind, whatever its answer. -/
structure Session where
  cursor : Cursor
  roster : Roster
  /-- Oldest first. -/
  events : List Event := []

/-- A reading with an answer or an error. -/
abbrev Reading := ExceptT ParseError (StateM Session)

namespace Reading

variable {α : Type}

/-- The answer of a reading and the session that it leaves. -/
def runFrom (session : Session) (reading : Reading α) : Except ParseError α × Session :=
  StateT.run (ExceptT.run reading) session

def record (events : List Event) : Reading Unit :=
  modify fun session => { session with events := session.events ++ events }

def log (event : Event) : Reading Unit := record [event]

/-- A logged value, with its events recorded. -/
def ofLogged (logged : Logged α) : Reading α := do
  record logged.events
  return logged.value

/-- A value of the model, or the error of the file that it comes from. -/
def ofModel (file : Text) (result : Except ModelError α) : Reading α :=
  match result with
  | .ok value => return value
  | .error source => throw (.model file source)

/-- Enrols a player who is named in a file. -/
def enrol (file name : Text) : Reading Unit := do
  let (_, roster) ← ofModel file ((← get).roster.enrol name)
  modify fun session => { session with roster }

/-- Marks a player who is named in a file as the hero. -/
def markHero (file name : Text) : Reading Unit := do
  let roster ← ofModel file ((← get).roster.markHero name)
  modify fun session => { session with roster }

/-- Moves to the next line; tells whether there is one. -/
def nextLine : Reading Bool :=
  modifyGet fun session =>
    let (moved, cursor) := session.cursor.nextLine
    (moved, { session with cursor })

/-- Moves to the first line from here on that is wanted; tells whether there is one. -/
def seek (wanted : Text → Bool) : Reading Bool :=
  modifyGet fun session =>
    let (found, cursor) := session.cursor.seek wanted
    (found, { session with cursor })

end Reading

end HandHistory
