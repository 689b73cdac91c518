import Barter.Contract.Outputs
import Barter.Contract.Transaction
import Barter.MarketKind

namespace Barter

def Terms.check (t : Terms) : Except Failure Unit :=
  if t.payAmount.isZero then .error (.invalidArgument (.zeroAmount .pay))
  else if t.buyAmount.isZero then .error (.invalidArgument (.zeroAmount .buy))
  else .ok ()

/-- What a market can be told to do. An `offer` makes an order too, and names the order after which
the new one belongs, zero leaving the search to the market. -/
inductive Command where
  | make (terms : Terms)
  | offer (terms : Terms) (position : OrderId)
  | bump (id : OrderId)
  | take (id : OrderId) (quantity : Wad)
  | kill (id : OrderId)
  | setBuyEnabled (on : Bool)
  | setMatchingEnabled (on : Bool)
  | whitelist (pair : TokenPair)
deriving DecidableEq

namespace Command

def method : Command → String
  | .make _ => "make"
  | .offer _ _ => "offer"
  | .bump _ => "bump"
  | .take _ _ => "take"
  | .kill _ => "kill"
  | .setBuyEnabled _ => "setBuyEnabled"
  | .setMatchingEnabled _ => "setMatchingEnabled"
  | .whitelist _ => "addTokenPairWhitelist"

def args : Command → List Value
  | .make t => [.address t.payToken, .address t.buyToken, .amount t.payAmount, .amount t.buyAmount]
  | .offer t position =>
      [.amount t.payAmount, .address t.payToken, .amount t.buyAmount, .address t.buyToken,
        .number position]
  | .bump id => [.orderId id]
  | .take id quantity => [.orderId id, .amount quantity]
  | .kill id => [.orderId id]
  | .setBuyEnabled on => [.bool on]
  | .setMatchingEnabled on => [.bool on]
  | .whitelist pair => [.address pair.base, .address pair.quote]

def intent (c : Command) (market : Address) : Intent :=
  ⟨market, c.method, c.args⟩

def checkedIntent (c : Command) (market : Address) : Except Failure Intent := do
  match c with
  | .make t => t.check
  | .offer t _ => t.check
  | _ => .ok ()
  return c.intent market

def readMake (o : Outputs) : Except Fault Command := do
  let payToken ← o.address 0
  let buyToken ← o.address 1
  let payAmount ← o.amount 2
  let buyAmount ← o.amount 3
  return .make { payToken, payAmount, buyToken, buyAmount }

def readOffer (o : Outputs) : Except Fault Command := do
  let payAmount ← o.amount 0
  let payToken ← o.address 1
  let buyAmount ← o.amount 2
  let buyToken ← o.address 3
  let position ← o.number 4
  return .offer { payToken, payAmount, buyToken, buyAmount } position

def ofCall (kind : MarketKind) (method : String) (args : List Value) : Except Fault Command :=
  let o : Outputs := ⟨method, args⟩
  match method with
  | "make" => readMake o
  | "offer" => o.ifHas kind.isMatching (readOffer o)
  | "bump" => .bump <$> o.orderId 0
  | "take" => do
      let id ← o.orderId 0
      return .take id (← o.amount 1)
  | "kill" => .kill <$> o.orderId 0
  | "setBuyEnabled" => o.ifHas kind.isMatching (.setBuyEnabled <$> o.bool 0)
  | "setMatchingEnabled" => o.ifHas kind.isMatching (.setMatchingEnabled <$> o.bool 0)
  | "addTokenPairWhitelist" => o.ifHas kind.isMatching do
      let base ← o.address 0
      return .whitelist ⟨base, ← o.address 1⟩
  | name => .error (.unknownMethod name)

def isFor (kind : MarketKind) : Command → Bool
  | .make _ => true
  | .offer _ _ => kind.isMatching
  | .bump _ => true
  | .take _ _ => true
  | .kill _ => true
  | .setBuyEnabled _ => kind.isMatching
  | .setMatchingEnabled _ => kind.isMatching
  | .whitelist _ => kind.isMatching

/-- A market reads back what was put into words. -/
theorem ofCall_args {kind : MarketKind} {c : Command} (h : c.isFor kind = true) :
    ofCall kind c.method c.args = .ok c := by
  cases c with
  | make t => rfl
  | offer t position =>
      have hp := Outputs.number_of_get ⟨"offer", (Command.offer t position).args⟩ 4 position rfl
      have hr : readOffer ⟨"offer", (Command.offer t position).args⟩ =
          .ok (.offer t position) := by
        rw [readOffer, hp]
        rfl
      exact (Outputs.ifHas_eq h _).trans hr
  | bump id =>
      have hid := Outputs.orderId_of_get ⟨"bump", [.orderId id]⟩ 0 id rfl
      exact congrArg (Command.bump <$> ·) hid
  | take id quantity =>
      have hid := Outputs.orderId_of_get ⟨"take", (Command.take id quantity).args⟩ 0 id rfl
      simp only [ofCall, method, hid]
      rfl
  | kill id =>
      have hid := Outputs.orderId_of_get ⟨"kill", [.orderId id]⟩ 0 id rfl
      exact congrArg (Command.kill <$> ·) hid
  | setBuyEnabled on => exact Outputs.ifHas_eq h _
  | setMatchingEnabled on => exact Outputs.ifHas_eq h _
  | whitelist pair => exact Outputs.ifHas_eq h _

end Command

inductive Query where
  | lastOfferId
  | offer (id : OrderId)
  | closeTime
  | isClosed
  | buyEnabled
  | matchingEnabled
deriving DecidableEq

namespace Query

def method : Query → String
  | .lastOfferId => "last_offer_id"
  | .offer _ => "offers"
  | .closeTime => "close_time"
  | .isClosed => "isClosed"
  | .buyEnabled => "buyEnabled"
  | .matchingEnabled => "matchingEnabled"

def args : Query → List Value
  | .offer id => [.number id]
  | _ => []

def ofCall (kind : MarketKind) (method : String) (args : List Value) : Except Fault Query :=
  let o : Outputs := ⟨method, args⟩
  match method with
  | "last_offer_id" => .ok .lastOfferId
  | "offers" => .offer <$> o.orderId 0
  | "close_time" => o.ifHas kind.hasExpiry (.ok .closeTime)
  | "isClosed" => o.ifHas kind.hasExpiry (.ok .isClosed)
  | "buyEnabled" => o.ifHas kind.isMatching (.ok .buyEnabled)
  | "matchingEnabled" => o.ifHas kind.isMatching (.ok .matchingEnabled)
  | name => .error (.unknownMethod name)

def isFor (kind : MarketKind) : Query → Bool
  | .lastOfferId => true
  | .offer _ => true
  | .closeTime => kind.hasExpiry
  | .isClosed => kind.hasExpiry
  | .buyEnabled => kind.isMatching
  | .matchingEnabled => kind.isMatching

theorem orderId_number (method : String) (id : OrderId) :
    Outputs.orderId ⟨method, [.number id]⟩ 0 = .ok id :=
  Outputs.narrowId_ofUInt64 _ id

/-- A market reads back what it is asked. -/
theorem ofCall_args {kind : MarketKind} {q : Query} (h : q.isFor kind = true) :
    ofCall kind q.method q.args = .ok q := by
  cases q with
  | lastOfferId => rfl
  | offer id => exact congrArg (Query.offer <$> ·) (orderId_number _ id)
  | closeTime => exact Outputs.ifHas_eq h _
  | isClosed => exact Outputs.ifHas_eq h _
  | buyEnabled => exact Outputs.ifHas_eq h _
  | matchingEnabled => exact Outputs.ifHas_eq h _

end Query

end Barter
