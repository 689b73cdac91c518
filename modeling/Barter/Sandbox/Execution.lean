import Barter.Command
import Barter.Ledger
import Barter.Sandbox.State

namespace Barter.Sandbox

def transactionHash (market : Address) (nonce : UInt64) : Hash :=
  Keccak.hash (market.toList ++ (Bytes.ofNat 8 nonce.toNat).toList)

def stamp (s : Sandbox) (event : EventKind) (args : Std.ExtTreeMap String Value) : Log where
  contract := s.market
  event := event.name
  block := s.block
  transaction := transactionHash s.market s.nonce
  args := args

def announce (s : Sandbox) (event : EventKind) (id : OrderId) (offer : Offer) : Log :=
  s.stamp event
    ((∅ : Std.ExtTreeMap String Value)
      |>.insert "id" (.orderId id)
      |>.insert "maker" (.address offer.owner)
      |>.insert "pay_gem" (.address offer.payToken)
      |>.insert "pay_amt" (.amount offer.payAmount)
      |>.insert "buy_gem" (.address offer.buyToken)
      |>.insert "buy_amt" (.amount offer.buyAmount)
      |>.insert "timestamp" (.number s.now))

def recordFill (s : Sandbox) (id : OrderId) (offer : Offer) (quantity given : Wad) : Log :=
  s.stamp .take
    ((∅ : Std.ExtTreeMap String Value)
      |>.insert "id" (.orderId id)
      |>.insert "maker" (.address offer.owner)
      |>.insert "taker" (.address s.sender)
      |>.insert "pay_gem" (.address offer.payToken)
      |>.insert "take_amt" (.amount quantity)
      |>.insert "buy_gem" (.address offer.buyToken)
      |>.insert "give_amt" (.amount given)
      |>.insert "timestamp" (.number s.now))

def reject (cause : Rejection) : Stop :=
  .fault (.rejected cause)

def liveOffer (s : Sandbox) (id : OrderId) : Except Stop Offer :=
  match s.offers[id]? with
  | some offer => .ok offer
  | none => .error (reject (.inactive id))

abbrev Effect := Sandbox × List Log

def create (s : Sandbox) (terms : Terms) : Except Stop Effect :=
  if s.isClosed then .error (reject .closed)
  else if terms.payAmount.isZero || terms.buyAmount.isZero then .error (reject .zeroAmount)
  else if terms.payToken = terms.buyToken then .error (reject .sameToken)
  else if !s.admits terms.pair then .error (reject .notWhitelisted)
  else
    let offer : Offer := { terms with owner := s.sender, timestamp := s.now }
    .ok (s.insert offer, [s.announce .make s.nextId offer])

def priceOf (offer : Offer) (quantity : Wad) : Except Stop Wad :=
  match Word.ofNat? (quantity.raw.toNat * offer.buyAmount.raw.toNat) with
  | none => .error (reject .fillOverflow)
  | some product =>
      if offer.payAmount.isZero then .error (.trapped .fillByZero)
      else .ok ⟨product.quotient offer.payAmount.raw.toNat⟩

def remainder? (offer : Offer) (quantity given : Wad) : Option Offer :=
  let left := offer.payAmount - quantity
  if left.isZero then none
  else some { offer with payAmount := left, buyAmount := offer.buyAmount - given }

def take (s : Sandbox) (id : OrderId) (quantity : Wad) : Except Stop Effect :=
  if s.isClosed then .error (reject .closed)
  else do
    let offer ← s.liveOffer id
    let given ← priceOf offer quantity
    if quantity.isZero || given.isZero || offer.payAmount < quantity then
      .error (reject (.badFill quantity id offer.payAmount))
    else
      let offers :=
        match remainder? offer quantity given with
        | some rest => s.offers.insert id rest
        | none => s.offers.erase id
      .ok ({ s with offers := offers }, [s.recordFill id offer quantity given])

def bump (s : Sandbox) (id : OrderId) : Except Stop Effect := do
  let offer ← s.liveOffer id
  return (s, [s.announce .bump id offer])

/-- Before the market closes only the owner may cancel an order, after that anyone. -/
def kill (s : Sandbox) (id : OrderId) : Except Stop Effect := do
  let offer ← s.liveOffer id
  if offer.owner = s.sender || s.isClosed then
    .ok ({ s with offers := s.offers.erase id }, [s.announce .kill id offer])
  else .error (reject (.notOwner s.sender id))

/-- Does what a command says. There is no list of orders to walk, so a position need only be an id
that has been used. -/
def execute (s : Sandbox) : Command → Except Stop Effect
  | .make terms => s.create terms
  | .offer terms position =>
      if s.lastId < position then .error (reject (.unknownPosition position)) else s.create terms
  | .bump id => s.bump id
  | .take id quantity => s.take id quantity
  | .kill id => s.kill id
  | .setBuyEnabled on => .ok ({ s with buyEnabled := on }, [])
  | .setMatchingEnabled on => .ok ({ s with matchingEnabled := on }, [])
  | .whitelist pair =>
      if s.whitelist.contains pair then .error (reject .alreadyWhitelisted)
      else .ok (s.allowPair pair, [])

def publish (s : Sandbox) (log : Log) : Sandbox :=
  { s with logs := s.logs ++ [log], channels := s.channels.map (·.deliver log) }

def mine (s : Sandbox) (logs : List Log) : Sandbox :=
  logs.foldl publish { s with block := s.block + 1 }

/-- Runs a call that the market understands as the next transaction. A refusal fills a block as
well; a trap does not. -/
def transact (s : Sandbox) (command : Except Fault Command) : Except Stop Pending × Sandbox :=
  let s := { s with nonce := s.nonce + 1 }
  let hash := transactionHash s.market s.nonce
  match command.mapError Stop.fault >>= s.execute with
  | .ok (after, logs) => (.ok ⟨hash, some (.ok ⟨hash, s.block, logs⟩)⟩, after.mine logs)
  | .error (.fault cause) => (.ok ⟨hash, some (.error cause)⟩, s.mine [])
  | .error (.trapped trap) => (.error (.trapped trap), s)

def submit (intent : Intent) (s : Sandbox) : Except Stop Pending × Sandbox :=
  if intent.contract ≠ s.market then
    (.error (.fault (.transport (.noContract intent.contract))), s)
  else
    match Command.ofCall s.kind intent.method intent.args with
    | .error (.unknownMethod name) => (.error (.fault (.unknownMethod name)), s)
    | command => s.transact command

def slot : Option Offer → List Value
  | some o =>
      [.amount o.payAmount, .address o.payToken, .amount o.buyAmount, .address o.buyToken,
        .address o.owner, .bool true, .number o.timestamp]
  | none =>
      [.uint .zero, .address .zero, .uint .zero, .address .zero, .address .zero, .bool false,
        .uint .zero]

def answer (s : Sandbox) : Query → List Value
  | .lastOfferId => [.number s.lastId]
  | .offer id => slot (s.offer? id)
  | .closeTime => [.number s.closeTime]
  | .isClosed => [.bool s.isClosed]
  | .buyEnabled => [.bool s.buyEnabled]
  | .matchingEnabled => [.bool s.matchingEnabled]

/-- Every call is counted, also one that fails. -/
def call (contract : Address) (method : String) (args : List Value) (s : Sandbox) :
    Except Fault (List Value) × Sandbox :=
  let result :=
    if contract ≠ s.market then .error (.transport (.noContract contract))
    else s.answer <$> Query.ofCall s.kind method args
  (result, { s with queries := s.queries + 1 })

def pastLogs (contract : Address) (event : String) (blocks : UInt64) (s : Sandbox) : List Log :=
  if contract ≠ s.market then []
  else
    s.logs.filter fun l => l.event = event && s.block.toNat - blocks.toNat ≤ l.block.toNat

/-- Another contract has no events, and a subscription to it ends at once. -/
def subscribe (contract : Address) (event : String) (s : Sandbox) : Stream × Sandbox :=
  if contract ≠ s.market then (.ended [], s)
  else (.live s.channels.length, { s with channels := s.channels ++ [⟨event, true, []⟩] })

def unsubscribe (s : Sandbox) (channel : Nat) : Sandbox :=
  { s with channels := s.channels.modify channel Channel.close }

def sent (s : Sandbox) (channel : Nat) : List Log :=
  (s.channels[channel]?.map Channel.sent).getD []

def approve (token spender : Address) (s : Sandbox) : Sandbox :=
  { s with approvals := s.approvals ++ [(token, spender)] }

def ledger : Ledger Sandbox where
  call := call
  submit := submit
  pastLogs contract event blocks s := (.ok (s.pastLogs contract event blocks), s)
  subscribe contract event s :=
    let (stream, s) := s.subscribe contract event
    (.ok stream, s)
  approve token spender _ s := (.ok (), s.approve token spender)

end Barter.Sandbox
