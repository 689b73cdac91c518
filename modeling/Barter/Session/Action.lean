import Barter.Client.Events
import Barter.Client.Trading
import Barter.Sandbox.State

namespace Barter.Session

inductive ClientAction where
  | describe
  | lastOrderId
  | order (id : OrderId)
  | orders
  | make (terms : Terms)
  | makeSimply (terms : Terms)
  | makeAt (terms : Terms) (position : Option OrderId)
  | send (command : Command)
  | position (terms : Terms)
  | isBuyEnabled
  | isMatchingEnabled
  | closeSeconds
  | closeTime
  | isClosed
  | pastEvents (kind : EventKind) (blocks : UInt64)
  | approve (tokens : List Address)

inductive SandboxAction where
  | setSender (sender : Address)
  | setTime (now : UInt64)
  | setCloseTime (closeTime : UInt64)
  | setFlags (buyEnabled matchingEnabled : Bool)
  | allowPair (pair : TokenPair)
  | reserveIds (id : OrderId)
  | resetQueries
  | insert (offer : Offer)
  | insertAt (id : OrderId) (offer : Offer)
  | offer (id : OrderId)
  | approvals
  | summary
  | call (contract : Address) (method : String) (args : List Value)
  | submit (intent : Intent)
  | pastLogs (contract : Address) (event : String) (blocks : UInt64)

inductive Action where
  | addClient (kind : MarketKind) (address : Address)
  | useClient (index : Nat)
  | client (action : ClientAction)
  | sandbox (action : SandboxAction)
  | subscribe (kind : EventKind)
  | unsubscribe (subscription : Nat)
  | finished

structure Description where
  name : String
  summary : String
  kind : MarketKind
  address : Address
  feed : String

inductive Reply where
  | done
  | number (n : Nat)
  | flag (b : Bool)
  | flags (bs : List Bool)
  | description (d : Description)
  | lookup (l : Lookup)
  | orders (os : List Order)
  | receipt (r : Receipt)
  | time (t : Option Instant)
  | events (es : List (Except Failure Event))
  | offer (o : Option Offer)
  | approvals (ps : List (Address × Address))
  | summary (text : String) (market : Address) (kind : MarketKind)
  | values (vs : List Value)
  | logs (ls : List Log)

inductive Refusal where
  | failure (cause : Failure) (transaction : Option Hash)
  | fault (cause : Fault)
  | unavailable

end Barter.Session
