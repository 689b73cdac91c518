import Barter.Playback
import Barter.Sandbox.Execution
import Barter.Session.Action

namespace Barter

inductive Backend where
  | sandbox (s : Sandbox)
  | playback (p : Recorded Playback)

namespace Backend

variable {ε α : Type}

def route (onSandbox : Step Sandbox ε α) (onPlayback : Step (Recorded Playback) ε α) :
    Step Backend ε α := fun b =>
  match b with
  | .sandbox s =>
      let (result, after) := onSandbox s
      (result, .sandbox after)
  | .playback p =>
      let (result, after) := onPlayback p
      (result, .playback after)

def ledger : Ledger Backend :=
  let s := Sandbox.ledger
  let p := Playback.ledger.recorded
  { call := fun contract method args =>
      route (s.call contract method args) (p.call contract method args)
    submit := fun intent => route (s.submit intent) (p.submit intent)
    pastLogs := fun contract event blocks =>
      route (s.pastLogs contract event blocks) (p.pastLogs contract event blocks)
    subscribe := fun contract event =>
      route (s.subscribe contract event) (p.subscribe contract event)
    approve := fun token spender spenderName =>
      route (s.approve token spender spenderName) (p.approve token spender spenderName) }

def forgetRequests : Backend → Backend
  | .sandbox s => .sandbox s
  | .playback p => .playback { p with seen := [] }

def unsubscribe (channel : Nat) : Backend → Backend
  | .sandbox s => .sandbox (s.unsubscribe channel)
  | .playback p => .playback p

end Backend

structure Client where
  kind : MarketKind
  address : Address
  absent : Std.ExtTreeSet OrderId

namespace Client

def new (kind : MarketKind) (address : Address) : Client :=
  ⟨kind, address, ∅⟩

def summary (c : Client) : String :=
  let address := c.address.hex
  let orders := s!"OrderRepository \x7b market: {address}, absent: {c.absent.size} \x7d"
  let base := s!"SimpleMarket \x7b address: {address}, orders: {orders} \x7d"
  let expiring := s!"ExpiringMarket \x7b base: {base} \x7d"
  match c.kind with
  | .simple => base
  | .expiring => expiring
  | .matching => s!"MatchingMarket \x7b expiring: {expiring} \x7d"

def describe (c : Client) : Session.Description where
  name := name c.address c.kind
  summary := c.summary
  kind := c.kind
  address := c.address
  feed := s!"EventFeed \x7b contract: {c.address.hex} \x7d"

end Client

/-- A handler for one kind of event, and how many of its logs it has been given. -/
structure Subscription where
  kind : EventKind
  stream : Stream
  aborted : Bool
  delivered : Nat

namespace Subscription

/-- A subscription lasts as long as the ledger can still publish to it, unless it is aborted. -/
def isFinished (s : Subscription) : Bool :=
  match s.stream with
  | .live _ => s.aborted
  | .ended _ => true

def logs (s : Subscription) (b : Backend) : List Log :=
  match s.stream, b with
  | .ended logs, _ => logs
  | .live channel, .sandbox sandbox => sandbox.sent channel
  | .live _, .playback _ => []

end Subscription

structure Session where
  backend : Backend
  clients : List Client
  current : Nat
  subscriptions : List Subscription

end Barter
