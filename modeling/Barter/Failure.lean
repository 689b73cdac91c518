import Barter.Contract.Fault
import Barter.EventKind

namespace Barter

inductive Side where
  | pay
  | buy
deriving DecidableEq

def Side.name : Side → String
  | .pay => "pay_amount"
  | .buy => "buy_amount"

inductive Misuse where
  | zeroAmount (side : Side)
  | priceOverflow (pay buy : Wad)
  | unknownKind (name : String)
deriving DecidableEq

def Misuse.message : Misuse → String
  | .zeroAmount side => s!"{side.name} must be greater than zero"
  | .priceOverflow pay buy => s!"price {pay.text} / {buy.text} overflows"
  | .unknownKind name => s!"unknown market kind: {name}"

inductive LogFault where
  | otherEvent (name : String)
  | missing (field : String)
  | mistyped (field : String) (expected found : ValueKind)
  | tooLarge (field : String) (value : Word)
deriving DecidableEq

def LogFault.message : LogFault → String
  | .otherEvent name => s!"log is a {name} event"
  | .missing field => s!"missing field '{field}'"
  | .mistyped field expected found => s!"field '{field}' expected {expected.name}, got {found.name}"
  | .tooLarge field value => s!"field '{field}' value {value.toNat} exceeds u64"

inductive Failure where
  | invalidArgument (cause : Misuse)
  | queryFailed (cause : Fault)
  | malformedEvent (event : EventKind) (cause : LogFault)
  | submissionFailed (cause : Fault)
  | transactionFailed (cause : Fault)
  | sourceFailed (cause : Fault)
  | trapped (trap : Trap)
deriving DecidableEq

def Failure.message : Failure → String
  | .invalidArgument cause => s!"Invalid argument: {cause.message}"
  | .queryFailed cause => s!"External query failed: {cause.message}"
  | .malformedEvent event cause => s!"Malformed {event.name} event: {cause.message}"
  | .submissionFailed cause => s!"Submission failed: {cause.message}"
  | .transactionFailed cause => s!"Transaction failed: {cause.message}"
  | .sourceFailed cause => s!"Event source failed: {cause.message}"
  | .trapped trap => trap.message

end Barter
