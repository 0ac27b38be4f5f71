import HandHistory.Room.PokerStars
import HandHistory.Room.Winamax

/-!
# Rooms

The two rooms whose histories are read. What differs between them is gathered
here as functions of the room; everything that is built on a room is built on
these functions alone.
-/

namespace HandHistory

inductive Room where
  | winamax
  | pokerStars
  deriving DecidableEq, Repr

namespace Room

/-- The name of the site that the histories of a room belong to. -/
def siteName : Room → Text
  | .winamax => Winamax.siteName
  | .pokerStars => PokerStars.siteName

/-- The rooms in the order in which they are offered. -/
def all : List Room := [.winamax, .pokerStars]

/-- The name by which a room is chosen. -/
def label : Room → Text
  | .winamax => "winamax"
  | .pokerStars => "pokerstars"

/-- The room that a name chooses. -/
def ofLabel? (label : Text) : Option Room := all.find? fun room => room.label == label

/-- Whether a line is the first of a hand. -/
def isHandStart : Room → Text → Bool
  | .winamax => Winamax.isHandStart
  | .pokerStars => PokerStars.isHandStart

/-- What separates the cards of a bracket group. -/
def cardDelimiter : Room → Text
  | .winamax | .pokerStars => " "

/-- Reads the first line of a hand with a reader of dates. -/
def readHeaderWith (dates : Timestamp.Reader) :
    Room → (file line : Text) → Except ParseError (Logged Header)
  | .winamax => Winamax.readHeader dates
  | .pokerStars => PokerStars.readHeader dates

def readHeader (room : Room) (file line : Text) : Except ParseError (Logged Header) :=
  room.readHeaderWith .gregorian file line

def readTableLine : Room → (file line : Text) → Except ParseError TableLine
  | .winamax => Winamax.readTableLine
  | .pokerStars => PokerStars.readTableLine

/-- What the room lets a file name say about its game. -/
def fileStem? : Room → (stem : Text) → Option FileStem
  | .winamax => FileStem.ofText?
  | .pokerStars => fun _ => none

/-- Whether a file of this stem is read at all. -/
def acceptsStem : Room → (stem : Text) → Bool
  | .winamax => Winamax.acceptsStem
  | .pokerStars => fun _ => true

/-- The directory that holds the histories, for a directory of the shape that the
room writes. -/
def historyDir? : Room → FileTree → (dir : Text) → Option Text
  | .winamax => Winamax.historyDir?
  | .pokerStars => PokerStars.historyDir?

/-- Whether a path of the history directory is one of a history file. -/
def isHistoryFile : Room → (path : Text) → Bool
  | .winamax => Winamax.isHistoryFile
  | .pokerStars => PokerStars.isHistoryFile

theorem siteName_ne_nil (room : Room) : room.siteName ≠ [] := by
  cases room <;> decide

end Room

end HandHistory
