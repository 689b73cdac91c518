import Barter.Contract.Value

namespace Barter

inductive TransportFault where
  | noContract (address : Address)
  | abandoned (transaction : Hash)
  | exhausted
  | other (text : String)
deriving DecidableEq

def TransportFault.message : TransportFault → String
  | .noContract address => s!"no contract at {address.checksum}"
  | .abandoned transaction => s!"submitter dropped transaction {transaction.hex}"
  | .exhausted => "script exhausted"
  | .other text => text

inductive DecodeFault where
  | missing (method : String) (index count : Nat)
  | mistyped (method : String) (index : Nat) (expected found : ValueKind)
  | tooLarge (method : String) (index : Nat) (value : Word)
  | idTooLarge (method : String) (value : Word)
  | worthless (id : OrderId)
  | other (text : String)
deriving DecidableEq

def DecodeFault.message : DecodeFault → String
  | .missing method index count =>
      s!"{method}: expected at least {index + 1} outputs, got {count}"
  | .mistyped method index expected found =>
      s!"{method}: output {index} expected {expected.name}, got {found.name}"
  | .tooLarge method index value => s!"{method}: output {index} value {value.toNat} exceeds u64"
  | .idTooLarge method value => s!"{method}: order id {value.toNat} exceeds u64"
  | .worthless id => s!"offers: active order {id.toNat} has zero buy amount"
  | .other text => text

inductive Rejection where
  | closed
  | zeroAmount
  | sameToken
  | notWhitelisted
  | alreadyWhitelisted
  | unknownPosition (position : OrderId)
  | inactive (id : OrderId)
  | notOwner (sender : Address) (id : OrderId)
  | fillOverflow
  | badFill (quantity : Wad) (id : OrderId) (offered : Wad)
  | other (text : String)
deriving DecidableEq

def Rejection.message : Rejection → String
  | .closed => "market closed"
  | .zeroAmount => "zero amount"
  | .sameToken => "pay and buy token are the same"
  | .notWhitelisted => "token pair not whitelisted"
  | .alreadyWhitelisted => "pair already whitelisted"
  | .unknownPosition position => s!"unknown position {position.toNat}"
  | .inactive id => s!"order {id.toNat} is not active"
  | .notOwner sender id => s!"{sender.checksum} is not the owner of order {id.toNat}"
  | .fillOverflow => "fill amount overflow"
  | .badFill quantity id offered =>
      s!"cannot take {quantity.text} from order {id.toNat} offering {offered.text}"
  | .other text => text

inductive Fault where
  | transport (cause : TransportFault)
  | decode (cause : DecodeFault)
  | rejected (cause : Rejection)
  | unknownMethod (name : String)
deriving DecidableEq

def Fault.message : Fault → String
  | .transport cause => s!"Transport error: {cause.message}"
  | .decode cause => s!"Decode error: {cause.message}"
  | .rejected cause => s!"Rejected: {cause.message}"
  | .unknownMethod name => s!"Unknown method: {name}"

end Barter
