import HandHistory.Stakes
import HandHistory.Timestamp

/-!
# Hand headers

The first line of a hand tells its identifier, its start, what is played and
for what. Both rooms print the same things in different places; this is what
they have in common.
-/

namespace HandHistory

structure Header where
  handId : Text
  kind : GameKind
  tournamentId? : Option Text
  tournamentName? : Option Text
  start : Timestamp
  smallBlind : Float
  bigBlind : Float
  buyIn : Float
  level : Nat
  variant : Variant
  limit : Limit

end HandHistory
