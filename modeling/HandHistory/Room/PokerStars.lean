import HandHistory.Amount
import HandHistory.FileTree
import HandHistory.Header
import HandHistory.Numeral.Roman
import HandHistory.Path
import HandHistory.TableLine
import HandHistory.Text.Wildcard

/-!
# PokerStars

A cash hand and a tournament hand begin like this:

```text
PokerStars Hand #125916315040:  Hold'em No Limit ($0.01/$0.02 USD) - 2014/10/31 0:45:01 CET
PokerStars Hand #126007434962: Tournament #1024497880, $0.98+$0.02 USD Hold'em No Limit - Level IV (50/100) - 2014/11/02 21:00:45 CET
```

File names describe nothing; everything is told by the first hand of a file.
-/

namespace HandHistory.PokerStars

def siteName : Text := "PokerStars"

/-- The texts that the first line of a hand may begin with. -/
def handStarts : List Text :=
  ["PokerStars Hand #".toList, "PokerStars Game #".toList, "PokerStars Zoom Hand #".toList]

def isHandStart (line : Text) : Bool := handStarts.any fun start => Text.hasStart start line

/-- The blinds, which stand in the last pair of parentheses before the date. -/
def blinds (body : Text) : Float × Float :=
  match Text.cutLast? "(" body with
  | some (_, rest) =>
    match Text.cut? ")" rest with
    | some (group, _) => Amount.blinds group
    | none => (0, 0)
  | none => (0, 0)

/-- What a line tells of a tournament: its identifier, its buy-in and its level. -/
structure Tournament where
  id : Text
  buyIn : Float
  level : Nat

/-- The tournament a line announces: an identifier up to a comma, and the buy-in
in the word behind the comma. A hand without one is a cash hand. -/
def tournament? (line : Text) : Logged (Option Tournament) :=
  match Text.cut? " Tournament #" line with
  | none => return none
  | some (_, rest) => do
    let (id, after) := (Text.cut? "," rest).getD (rest, [])
    let buyIn ← ((Text.words after).head?).elim (pure 0) Amount.buyIn
    let level := (Text.between? "Level " " (" line).elim 0 fun level =>
      Numeral.Roman.value (Text.trimBlank level)
    return some { id := Text.trimBlank id, buyIn, level }

def header (handId body : Text) (start : Timestamp) (tournament? : Option Tournament) : Header :=
  let (smallBlind, bigBlind) := blinds body
  { handId
    kind := if tournament?.isSome then .tournament else .cash
    tournamentId? := tournament?.map Tournament.id
    tournamentName? := tournament?.map fun tournament => "Tournament " ++ tournament.id
    start, smallBlind, bigBlind
    buyIn := tournament?.elim 0 Tournament.buyIn
    level := tournament?.elim 0 Tournament.level
    variant := .ofLabel body
    limit := .ofLabel body }

/-- Reads a header: the identifier stands between `#` and `:`, the date behind
the last ` - `. -/
def readHeader (dates : Timestamp.Reader) (file line : Text) :
    Except ParseError (Logged Header) :=
  let handId := ((Text.between? "#" ":" line).map Text.trimBlank).getD []
  if handId.isEmpty then .error (.missingAnchor file .starsHandId line)
  else
    match Text.cutLast? " - " line with
    | none => .error (.missingAnchor file .starsDate line)
    | some (body, date) =>
      match Timestamp.leading? dates date with
      | none => .error (.missingAnchor file .starsDate line)
      | some start => .ok (header handId body start <$> tournament? line)

def readTableLine (file line : Text) : Except ParseError TableLine :=
  if Text.hasStart "Table '" line then
    TableLine.ofFields file line (some (!Text.has "(Play Money)" line))
  else .error (.missingAnchor file .starsTable line)

/-- Any directory can hold histories. -/
def historyDir? (tree : FileTree) (dir : Text) : Option Text :=
  if tree.isDir dir then some dir else none

/-- The stems of summaries and of the copies that a client has numbered. -/
def excludedStems : List Text := ["*_summary".toList, "TS*".toList, "* (*)".toList]

/-- Text files, less the excluded ones. -/
def isHistoryFile (path : Text) : Bool :=
  Path.isTextFile path &&
    !excludedStems.any fun pattern => Text.Wildcard.isMatch pattern (Path.stem path)

end HandHistory.PokerStars
