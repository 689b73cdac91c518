import Barter.Command
import Barter.Order

namespace Barter

/-- The price of an order that is still to be made. Unlike that of an existing order it never stands
for a quotient that is too large. -/
def Terms.price (t : Terms) : Except Failure Wad := do
  t.check
  match t.payAmount.div? t.buyAmount with
  | some price => .ok price
  | none => .error (.invalidArgument (.priceOverflow t.payAmount t.buyAmount))

namespace Hint

structure Candidate where
  price : Wad
  id : OrderId
deriving DecidableEq

def Candidate.before (a b : Candidate) : Bool :=
  a.price < b.price || (a.price == b.price && a.id < b.id)

def candidates (orders : List Order) (pair : TokenPair) (price : Wad) : List Candidate :=
  ((orders.filter (·.isPair pair)).map fun o => ⟨o.sellToBuyPrice, o.id⟩).filter
    fun c => price ≤ c.price

def first (best : Option Candidate) (c : Candidate) : Option Candidate :=
  match best with
  | none => some c
  | some b => some (if c.before b then c else b)

/-- The order behind which one sold at `price` belongs in a list of falling prices: of the orders of
the pair that are not cheaper, the cheapest. Zero stands for the head of the list. -/
def position (orders : List Order) (pair : TokenPair) (price : Wad) : OrderId :=
  (((candidates orders pair price).foldl first none).map Candidate.id).getD 0

end Hint

end Barter
