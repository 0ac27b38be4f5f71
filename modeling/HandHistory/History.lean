import HandHistory.Draft
import HandHistory.GameData

/-!
# Histories

A history is a file of hands. A hand reaches from its header to the line before
the next header; lines in front of the first header belong to no hand.

`History.readHand` reads the next hand and leaves the cursor on its last line.
`History.readGame` reads all hands of a file into one game, and is all or
nothing: one hand that cannot be read costs the game.
-/

namespace HandHistory

/-- A hand with the two lines that describe its game. -/
structure HandRecord where
  header : Header
  table : TableLine
  hand : Hand

namespace History

/-- The draft after the lines up to the next header. -/
def readBody (room : Room) (context : HandContext) : List Text → Draft → Reading Draft
  | [], draft => return draft
  | line :: ahead, draft =>
    if room.isHandStart line then return draft
    else do
      let _ ← Reading.nextLine
      let draft ← draft.consume context line
      readBody room context ahead draft

/-- The hand that a header, a table line and a finished draft make up. -/
def assemble (room : Room) (header : Header) (table : TableLine) (draft : Draft) : Hand :=
  { id := header.handId
    kind := header.kind
    site := room.siteName
    table := table.table
    button := table.button
    maxSeats := table.maxSeats
    level := header.level
    ante := draft.ante
    start := header.start
    heroCards := draft.heroCards
    board := draft.board
    seats := draft.seats
    actions := draft.actions
    winners := .ofNames draft.winners }

/-- Moves to the next header and reads it. -/
def readHeader (room : Room) : Reading Header := do
  let file := (← get).cursor.file
  if ← Reading.seek room.isHandStart then
    match room.readHeader file (← get).cursor.current with
    | .ok header => Reading.ofLogged header
    | .error e => throw e
  else throw (.unexpectedEnd file .handHeader)

/-- Moves to the next line and reads it as a table line. -/
def readTableLine (room : Room) : Reading TableLine := do
  let file := (← get).cursor.file
  if ← Reading.nextLine then
    match room.readTableLine file (← get).cursor.current with
    | .ok table => return table
    | .error e => throw e
  else throw (.unexpectedEnd file .tableLine)

/-- The hand that the body behind a header belongs to. -/
def contextOf (room : Room) (file : Text) (header : Header) : HandContext :=
  { file, handId := header.handId, cardDelimiter := room.cardDelimiter }

/-- Reads the lines of a hand behind its header and its table line. -/
def readRest (room : Room) (header : Header) (table : TableLine) : Reading HandRecord := do
  let cursor := (← get).cursor
  let context := contextOf room cursor.file header
  let draft ← readBody room context cursor.ahead {}
  let draft ← draft.addSilentWinners context
  let hand ← Reading.ofModel cursor.file (assemble room header table draft).create
  return { header, table, hand }

/-- Reads the next hand; the cursor is left on the last line of it. -/
def readHand (room : Room) : Reading HandRecord := do
  let header ← readHeader room
  let table ← readTableLine room
  readRest room header table

/-- Reads the next hand together with what it tells of the game. -/
def readHandAndData (room : Room) (stem : Text) : Reading (Hand × GameData) := do
  let first ← readHand room
  return (first.hand, .gather room first.header first.table stem)

/-- Adds the hands that are left to a game. Every hand takes a header line, so
that the number of lines bounds the number of hands. -/
def readOthers (room : Room) : (bound : Nat) → StakedGame → Reading StakedGame
  | 0, game => return game
  | bound + 1, game => do
    if ← Reading.seek room.isHandStart then
      let record ← readHand room
      readOthers room bound (game.addHand record.hand)
    else return game

/-- Reads all hands of a file into one game; a file without a hand has none. -/
def readGame (room : Room) (stem : Text) : Reading (Option StakedGame) := do
  let file := (← get).cursor.file
  if ← Reading.seek room.isHandStart then
    let (hand, data) ← readHandAndData room stem
    let game ← Reading.ofModel file (data.emptyGame room.siteName)
    let bound := (← get).cursor.ahead.length + 1
    some <$> readOthers room bound (game.addHand hand)
  else
    Reading.log (.noHandFound file)
    return none

end History

end HandHistory
