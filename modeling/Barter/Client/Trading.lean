import Barter.Client.Orders
import Barter.Hint

namespace Barter

def Failure.ofStop : Stop → Failure
  | .fault cause => .submissionFailed cause
  | .trapped trap => .trapped trap

namespace Client

variable {σ : Type} (l : Ledger σ) (market : Address)

def submit (intent : Intent) : Work σ Pending := fun v =>
  let (result, after) := l.submit intent v.ledger
  (result.mapError .ofStop, { v with ledger := after })

def send (c : Command) : Work σ Pending := do
  submit l (← Work.of (c.checkedIntent market))

def position (terms : Terms) : Work σ OrderId := do
  let price ← Work.of terms.price
  let active ← orders l market
  return Hint.position active terms.pair price

/-- Makes an order at a position of a matching market, at an estimated one if none is given. The
amounts are checked before any question is asked. -/
def makeAt (terms : Terms) (given : Option OrderId) : Work σ Pending := do
  Work.of terms.check
  let position ←
    match given with
    | some id => pure id
    | none => position l market terms
  send l market (.offer terms position)

def make (kind : MarketKind) (terms : Terms) : Work σ Pending :=
  if kind.isMatching then makeAt l market terms none else send l market (.make terms)

def flag (q : Query) : Work σ Bool := do
  let o ← ask l market q
  Work.read (o.bool 0)

def closeSeconds : Work σ UInt64 := do
  let o ← ask l market .closeTime
  Work.read (o.number 0)

def closeTime : Work σ (Option Instant) :=
  Instant.ofSeconds? <$> closeSeconds l market

def name (kind : MarketKind) : String :=
  s!"{kind.title}Market('{market.checksum}')"

def approve (kind : MarketKind) : List Address → Work σ Unit
  | [] => return ()
  | token :: rest => do
      Work.ask .submissionFailed (l.approve token market (name market kind))
      approve kind rest

end Client

end Barter
