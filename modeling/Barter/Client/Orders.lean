import Barter.Client.View
import Barter.Order

namespace Barter

/-- Reads the slot of an order that is live: amounts, tokens, owner and time. An order that wants
nothing has no price, and is taken for a garbled answer. -/
def Order.ofSlot (market : Address) (id : OrderId) (o : Outputs) : Except Fault Order := do
  let buyAmount ← o.amount 2
  if buyAmount.isZero then .error (.decode (.worthless id))
  else
    let maker ← o.address 4
    let payToken ← o.address 1
    let payAmount ← o.amount 0
    let buyToken ← o.address 3
    let timestamp ← o.number 6
    return { market, id, maker, payToken, payAmount, buyToken, buyAmount, timestamp }

def Lookup.ofSlot (market : Address) (id : OrderId) (o : Outputs) : Except Fault Lookup := do
  if ← o.bool 5 then .present <$> Order.ofSlot market id o else return .absent

namespace Client

variable {σ : Type} (l : Ledger σ) (market : Address)

def lastOrderId : Work σ OrderId := do
  let o ← ask l market .lastOfferId
  Work.read (o.number 0)

def order (id : OrderId) : Work σ Lookup := do
  if ← Work.isAbsent id then return .absent
  else
    let o ← ask l market (.offer id)
    match ← Work.read (Lookup.ofSlot market id o) with
    | .present found => return .present found
    | .absent =>
        Work.markAbsent id
        return .absent

/-- Looks up `count` ids from `id` on, up to the first failure; `found` holds the orders met before,
the last one first. -/
def ordersFrom (id : OrderId) (found : List Order) : Nat → Work σ (List Order)
  | 0 => return found.reverse
  | count + 1 => do
      match ← order l market id with
      | .present o => ordersFrom (id + 1) (o :: found) count
      | .absent => ordersFrom (id + 1) found count

def orders : Work σ (List Order) := do
  let last ← lastOrderId l market
  ordersFrom l market 1 [] last.toNat

end Client

end Barter
