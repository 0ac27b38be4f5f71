import HandHistory.Error

/-!
# Actions

An action is what one player does once: on which street, of which kind, for how
much, and at which position in the hand. `Action.create` is the only way the
library makes one, and refuses an action without a hand, a player or a street,
and one with a negative amount.
-/

namespace HandHistory

/-- The betting rounds. `undealt` is the time before the first card. -/
inductive Street where
  | undealt
  | preflop
  | flop
  | turn
  | river
  deriving DecidableEq, Repr

namespace Street

def all : List Street := [.undealt, .preflop, .flop, .turn, .river]

def token : Street → Text
  | .undealt => "none"
  | .preflop => "preflop"
  | .flop => "flop"
  | .turn => "turn"
  | .river => "river"

def ofToken (text : Text) : Except TokenError Street :=
  match all.find? fun street => street.token == text with
  | some street => .ok street
  | none => .error ⟨.street, text⟩

end Street

/-- What a player does. `silent` stands for a winner who did nothing else. -/
inductive ActionKind where
  | silent
  | fold
  | check
  | call
  | bet
  | raise
  deriving DecidableEq, Repr

namespace ActionKind

def all : List ActionKind := [.silent, .fold, .check, .call, .bet, .raise]

def token : ActionKind → Text
  | .silent => "none"
  | .fold => "fold"
  | .check => "check"
  | .call => "call"
  | .bet => "bet"
  | .raise => "raise"

def ofToken (text : Text) : Except TokenError ActionKind :=
  match all.find? fun kind => kind.token == text with
  | some kind => .ok kind
  | none => .error ⟨.action, text⟩

/-- Whether an action of this kind puts chips into the pot. -/
def hasAmount : ActionKind → Bool
  | .call | .bet | .raise => true
  | .silent | .fold | .check => false

end ActionKind

structure Action where
  handId : Text
  player : Text
  street : Street
  kind : ActionKind
  index : Nat
  amount : Float
  deriving Repr

/-- An action whose fields keep the rules; the first broken rule is the error. -/
def Action.create (handId player : Text) (street : Street) (kind : ActionKind)
    (index : Nat) (amount : Float) : Except ModelError Action :=
  if handId.isEmpty then .error (.emptyField .actionHand)
  else if player.isEmpty then .error (.emptyField .actionPlayer)
  else if street = .undealt then .error .streetNone
  else if amount < 0 then .error (.negativeAmount .bet)
  else .ok { handId, player, street, kind, index, amount }

end HandHistory
