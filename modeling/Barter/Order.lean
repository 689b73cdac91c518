import Barter.Calendar
import Barter.Offer

namespace Barter

structure Order extends Terms where
  market : Address
  id : OrderId
  maker : Address
  timestamp : UInt64
deriving DecidableEq

namespace Order

/-- Two readings are of one order if market and id agree, whatever has been taken in between. -/
def identity (o : Order) : Address × OrderId :=
  (o.market, o.id)

def isSame (a b : Order) : Bool :=
  a.identity == b.identity

def sellToBuyPrice (o : Order) : Wad :=
  (o.payAmount.div? o.buyAmount).getD .max

def buyToSellPrice? (o : Order) : Option Wad :=
  o.buyAmount.div? o.payAmount

def createdAt? (o : Order) : Option Instant :=
  Instant.ofSeconds? o.timestamp

def isPair (o : Order) (pair : TokenPair) : Bool :=
  o.pair == pair

def text (o : Order) : String :=
  let sold := s!"{o.payAmount.text} {o.payToken.checksum}"
  let wanted := s!"{o.buyAmount.text} {o.buyToken.checksum}"
  s!"#{o.id.toNat} {sold} -> {wanted} (maker {o.maker.checksum})"

end Order

inductive Lookup where
  | present (order : Order)
  | absent
deriving DecidableEq

namespace Lookup

def order? : Lookup → Option Order
  | .present o => some o
  | .absent => none

def isAbsent (l : Lookup) : Bool :=
  l.order?.isNone

def isSame : Lookup → Lookup → Bool
  | .present a, .present b => a.isSame b
  | .absent, .absent => true
  | _, _ => false

end Lookup

def countDistinct (orders : List Order) : Nat :=
  (orders.map Order.identity).eraseDups.length

end Barter
