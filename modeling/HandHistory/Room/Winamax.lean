import HandHistory.Amount
import HandHistory.FileStem
import HandHistory.FileTree
import HandHistory.Header
import HandHistory.Path
import HandHistory.TableLine
import HandHistory.Text.Wildcard

/-!
# Winamax

A cash hand and a tournament hand begin like this:

```text
Winamax Poker - CashGame - HandId: #5486312-79-1415836185 - Holdem no limit (0.01€/0.02€) - 2014/11/12 23:49:45 UTC
Winamax Poker - Tournament "Freeroll" buyIn: 0.45€ + 0.05€ level: 1 - HandId: #100-1-1416 - Holdem no limit (10/20) - 2014/11/12 23:49:45 UTC
```

Histories lie in a directory of their own, and their file names describe the
game.
-/

namespace HandHistory.Winamax

def siteName : Text := "Winamax"

def isHandStart (line : Text) : Bool := Text.hasStart "Winamax Poker - " line

/-- What the text in front of the hand identifier tells of a tournament: its
name, its buy-in and its level. -/
structure Tournament where
  name? : Option Text
  buyIn : Float
  level : Nat

/-- Reads the amount of a text that may be missing; a missing one is zero. -/
def amountOr (read : Text → Logged Float) (text? : Option Text) : Logged Float :=
  text?.elim (pure 0) read

/-- The tournament that a text announces; a hand without one is a cash hand. -/
def tournament? (front : Text) : Logged (Option Tournament) :=
  if Text.has "Tournament \"" front then do
    let buyIn ← amountOr Amount.buyIn
      ((Text.between? "buyIn: " " level: " front).or (Text.between? "buyIn: " " - " front))
    let level ← amountOr Amount.atHead (Text.between? "level: " " - " front)
    return some
      { name? := Text.between? "Tournament \"" "\"" front
        buyIn
        level := level.toUInt32.toNat }
  else return none

/-- The header with an identifier, a label and blinds, and a start. -/
def header (handId game : Text) (start : Timestamp) (tournament? : Option Tournament) : Header :=
  let label := Text.before " (" game
  let (smallBlind, bigBlind) := ((Text.between? "(" ")" game).map Amount.blinds).getD (0, 0)
  { handId
    kind := if tournament?.isSome then .tournament else .cash
    tournamentId? := tournament?.map fun _ => Text.before "-" handId
    tournamentName? := tournament?.bind Tournament.name?
    start, smallBlind, bigBlind
    buyIn := tournament?.elim 0 Tournament.buyIn
    level := tournament?.elim 0 Tournament.level
    variant := .ofLabel label
    limit := .ofLabel label }

/-- Reads a header. Behind the identifier, pieces are separated by ` - `: the
last one is the date, and the one between identifier and date is the game. -/
def readHeader (dates : Timestamp.Reader) (file line : Text) :
    Except ParseError (Logged Header) :=
  match Text.cut? "HandId: #" line with
  | none => .error (.missingAnchor file .winamaxHandId line)
  | some (front, rest) =>
    match Text.split " - " rest with
    | id :: second :: others =>
      let handId := Text.trimBlank id
      if handId.isEmpty then .error (.missingAnchor file .winamaxHandId line)
      else
        match Timestamp.leading? dates ((second :: others).getLastD []) with
        | none => .error (.missingAnchor file .winamaxDate line)
        | some start =>
          let game := if others.isEmpty then [] else second
          .ok (header handId game start <$> tournament? front)
    | _ => .error (.missingAnchor file .winamaxHandId line)

/-- The money type a table line names. -/
def money? (line : Text) : Option Bool :=
  if Text.has "(real money)" line then some true
  else if Text.has "(play money)" line then some false
  else none

def readTableLine (file line : Text) : Except ParseError TableLine :=
  if Text.hasStart "Table: " line then TableLine.ofFields file line (money? line)
  else .error (.missingAnchor file .winamaxTable line)

/-- Only files whose stem describes a game are read. -/
def acceptsStem (stem : Text) : Bool := (FileStem.ofText? stem).isSome

/-- The name of the directory that holds the histories of an account. -/
def historyName : Text := "history"

/-- The history directory of an account directory; the history directory itself
is also accepted. -/
def historyDir? (tree : FileTree) (dir : Text) : Option Text :=
  if !tree.isDir dir then none
  else if Path.fileName? dir == some historyName then some dir
  else
    let history := Path.join dir historyName
    if tree.isDir history then some history else none

/-- Text files, less the summaries and the numbered copies next to them. -/
def isHistoryFile (path : Text) : Bool :=
  let stem := Path.stem path
  Path.isTextFile path && !Text.Wildcard.isMatch "*_summary" stem && !FileStem.isCopy stem

end HandHistory.Winamax
