import HandHistory.History
import HandHistory.Pool
import HandHistory.Text.Utf8

/-!
# History files

One history file becomes one site: a single game and the players it names. A
file whose name the room does not accept, a file that cannot be read, and a file
without a hand become none; each of these is an event under the path of the file.

A file is read with a roster of its own, so that the players of a file that
fails are never seen by anyone.
-/

namespace HandHistory

/-- What reading one file gives, and what it leaves behind. -/
structure FileReading where
  game : Except ParseError (Option StakedGame)
  roster : Roster
  events : List Event

namespace HistoryFile

/-- Reads a file into one game; the players it names are enrolled in a roster. -/
def read (room : Room) (tree : FileTree) (path : Text) (roster : Roster) : FileReading :=
  let stem := Path.stem path
  if !room.acceptsStem stem then
    { game := .ok none, roster, events := [.fileNameRejected path] }
  else
    match tree.read path with
    | .error fault => { game := .error (.unreadable path fault.message), roster, events := [] }
    | .ok bytes =>
      let cursor := Cursor.ofText (Path.shortName path) (Text.Utf8.decode bytes)
      let (game, session) := (History.readGame room stem).runFrom { cursor, roster }
      { game, roster := session.roster, events := session.events }

/-- The site of a game and of the players that a roster holds. -/
def siteOf (room : Room) (game : StakedGame) (roster : Roster) : Site :=
  (roster.drainInto (({ name := room.siteName } : Site).addGame game)).2.1

/-- The task of reading a file into a site. It is abandoned by the one error
that ends the task itself. -/
def load (room : Room) (tree : FileTree) (path : Text) : PoolTask (Option Site) :=
  let reading := read room tree path { site := room.siteName }
  match reading.game with
  | .ok (some game) =>
    ⟨.finished (some (siteOf room game reading.roster)),
      reading.events ++ [.fileParsed path game.game.hands.length]⟩
  | .ok none => ⟨.finished none, reading.events ++ [.fileWithoutGame path]⟩
  | .error cause =>
    if cause.abandons then ⟨.abandoned, reading.events⟩
    else ⟨.finished none, reading.events ++ [.fileFailed path cause]⟩

end HistoryFile

end HandHistory
