import HandHistory.Action
import HandHistory.Numeral
import HandHistory.Text.Blank

/-!
# Body lines

Behind header and table line, a hand is a list of lines that each say one thing:
who sits where, what is dealt, who acts, who wins. This module tells the kinds
apart by the text of a line alone. Whether a seat line may still come is the
only thing that the lines before decide, and it is a parameter; whether a name
belongs to a seated player is not asked here.

Nothing is refused. A line of no kind is `noise`.
-/

namespace HandHistory

/-- Which cards of the board a street marker deals. -/
inductive BoardPart where
  | flop
  | turn
  | river
  deriving DecidableEq, Repr

/-- What one line of a hand says. The line itself is kept where it may have to
be named in an event. -/
inductive BodyLine where
  | blank
  | summary
  /-- A seat line without the colon behind its number. -/
  | brokenSeat
  | seat (number player : Text) (line : Text)
  /-- The marker of the first street, which deals no board cards. -/
  | preflop
  | board (part : BoardPart) (group? : Option Text)
  /-- A marker that names no street. -/
  | marker
  | ante (line : Text)
  | blind
  | dealt (player : Text) (group? : Option Text)
  | winner (player : Text) (line : Text)
  | action (kind : ActionKind) (player tail : Text) (line : Text)
  | noise
  deriving DecidableEq, Repr

namespace BodyLine

/-- Whether a text begins like the chips of a player: with a digit or a currency sign. -/
def opensChips : Text → Bool
  | c :: _ => Numeral.isDigit c || c == '$' || c == '€' || c == '£'
  | [] => false

/-- The text in front of the first ` (` that opens chips. -/
def beforeChips? : Text → Option Text
  | [] => none
  | c :: text =>
    match Text.stripStart? " (" (c :: text) with
    | some rest => if opensChips rest then some [] else (beforeChips? text).map (c :: ·)
    | none => (beforeChips? text).map (c :: ·)

/-- The player of a seat line, who stands in front of the chips. A line without
chips is cut at its last ` (`, and without that it is all name. -/
def seatedName (body : Text) : Text :=
  Text.trimLine <| (beforeChips? body).getD <|
    ((Text.cutLast? " (" body).map Prod.fst).getD body

/-- The player in front of what a line says; colons behind the name do not
belong to it. -/
def actorName (front : Text) : Text :=
  Text.trimLine (Text.trimEndBy (· == ':') (Text.trimLine front))

/-- The words that tell of an action, in the order in which they are tried. -/
def actionWords : List (Text × ActionKind) :=
  [(" is all-in ", .raise), (" is all-In ", .raise), (" folds", .fold), (" checks", .check),
   (" bets ", .bet), (" calls ", .call), (" raises ", .raise)]

/-- What may follow an action that puts the last chips into the pot. -/
def allInEnds : List Text := [" and is all-in".toList, " and is all-In".toList]

/-- The words that tell of a winner, in the order in which they are tried. -/
def winnerWords : List Text := [" collected ".toList, " wins ".toList]

/-- A line without the remark that the player is all-in. -/
def withoutAllIn (line : Text) : Text :=
  (allInEnds.findSome? fun ending => Text.stripEnd? ending line).getD line

/-- An action line; a space is added at its end, so that words which end with a
space are also found there. -/
def ofAction (line : Text) : BodyLine :=
  let line := withoutAllIn line
  let found := actionWords.findSome? fun (words, kind) =>
    (Text.cut? words (line ++ " ")).map fun (front, tail) => (kind, front, tail)
  match found with
  | some (kind, front, tail) => .action kind (actorName front) tail line
  | none => .noise

/-- A line that tells of a winner. -/
def ofWinner? (line : Text) : Option BodyLine :=
  (winnerWords.findSome? fun words => Text.cut? words line).map fun (front, _) =>
    .winner (actorName front) line

/-- A line between stars. -/
def ofMarker (line : Text) : BodyLine :=
  if Text.has "PRE-FLOP" line || Text.has "HOLE CARDS" line then .preflop
  else if Text.has "FLOP" line then .board .flop (Text.lastBracketGroup? line)
  else if Text.has "TURN" line then .board .turn (Text.lastBracketGroup? line)
  else if Text.has "RIVER" line then .board .river (Text.lastBracketGroup? line)
  else .marker

/-- A line that begins with `Dealt to `; without a bracket it says nothing. -/
def ofDealt (rest : Text) : BodyLine :=
  match Text.cut? " [" rest with
  | some (name, _) => .dealt (Text.trimLine name) (Text.lastBracketGroup? rest)
  | none => .noise

/-- A line that begins with `Seat `, while seats may be taken. -/
def ofSeat (rest line : Text) : BodyLine :=
  match Text.cut? ": " rest with
  | some (number, body) => .seat number (seatedName body) line
  | none => .brokenSeat

/-- A line that is no seat line. -/
def ofOpenText (line : Text) : BodyLine :=
  if Text.hasStart "*** " line then ofMarker line
  else if Text.has " posts ante" line || Text.has " posts the ante" line then .ante line
  else if Text.has " posts " line then .blind
  else
    match Text.stripStart? "Dealt to " line with
    | some rest => ofDealt rest
    | none => (ofWinner? line).getD (ofAction line)

/-- What a line says, freed from blanks at its ends. -/
def ofText (seatsOpen : Bool) (raw : Text) : BodyLine :=
  let line := Text.trimLine raw
  if line.isEmpty then .blank
  else if Text.hasStart "*** SUMMARY ***" line then .summary
  else
    match Text.stripStart? "Seat " line with
    | some rest => if seatsOpen then ofSeat rest line else ofOpenText line
    | none => ofOpenText line

/-- Whether further seat lines may follow a line. -/
def keepsSeatsOpen : BodyLine → Bool
  | .blank | .summary | .brokenSeat | .seat .. => true
  | _ => false

end BodyLine

end HandHistory
