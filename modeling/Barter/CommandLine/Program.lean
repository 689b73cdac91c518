import Barter.Client.Trading
import Barter.CommandLine.Arguments
import Barter.CommandLine.Environment
import Barter.Sandbox.Execution
import Barter.Snapshot

namespace Barter.CommandLine

inductive Problem where
  | usage (u : Usage)
  | unconfigured (u : Unconfigured)
  | defect (d : Snapshot.Defect)
  | failure (f : Failure)
deriving DecidableEq

def Problem.message : Problem → String
  | .usage u => u.message
  | .unconfigured u => u.message
  | .defect d => d.message
  | .failure f => f.message

def orderLine (o : Order) : String :=
  let id := Text.column 6 o.id.toNat
  let sold := s!"{o.payAmount.text} of {o.payToken.checksum}"
  let wanted := s!"{o.buyAmount.text} of {o.buyToken.checksum}"
  s!"#{id} maker {o.maker.checksum} sells {sold} for {wanted} @ {o.sellToBuyPrice.text}"

def onMarket {α : Type} (s : Sandbox) (w : Ledger Sandbox → Address → Work Sandbox α) :
    Except Problem α :=
  (w Sandbox.ledger s.market ⟨∅, s⟩).1.mapError .failure

def openMarket (start : UInt64) (file : Option String) : Except Problem Sandbox :=
  match file with
  | none => .error (.defect .unreadable)
  | some text => ((Snapshot.ofText text).bind (·.sandbox start)).mapError .defect

def listOrders (s : Sandbox) : Except Problem (List String) := do
  let orders ← onMarket s Client.orders
  return s!"{Client.name s.market s.kind}: {orders.length} active orders" :: orders.map orderLine

def showPosition (price : Wad) (pair : TokenPair) (s : Sandbox) : Except Problem (List String) := do
  let orders ← onMarket s Client.orders
  let position := Hint.position orders pair price
  if position = 0 then
    return [s!"0 (no order at or above {price.text}; the contract searches)"]
  else return [toString position.toNat]

def showLastId (s : Sandbox) : Except Problem (List String) := do
  let last ← onMarket s Client.lastOrderId
  return [toString last.toNat]

/-- The lines that a task prints. The price of a new order is settled before the snapshot is
opened. -/
def Task.run (start : UInt64) (file : Option String) : Task → Except Problem (List String)
  | .orders => openMarket start file >>= listOrders
  | .position terms => do
      let price ← terms.price.mapError .failure
      openMarket start file >>= showPosition price terms.pair
  | .lastId => openMarket start file >>= showLastId

def plan (words : List String) (env : Environment) : Except Problem (Task × String) := do
  let invocation ← (Invocation.ofWords words).mapError .usage
  let path ← (snapshotPath invocation.snapshot env).mapError .unconfigured
  return (invocation.task, path)

def file? (words : List String) (env : Environment) (settings : Option String) : Option String :=
  match plan words (env.loadText (settings.getD "")) with
  | .ok (_, path) => some path
  | .error _ => none

/-- Runs a command line at the time `start`: `env` holds the variables set from outside, `settings`
is the text of the file that may add to them, and `read?` gives the text of a file. -/
def run (words : List String) (env : Environment) (settings : Option String)
    (read? : String → Option String) (start : UInt64 := 0) : Except Problem (List String) := do
  let (task, path) ← plan words (env.loadText (settings.getD ""))
  task.run start (read? path)

end Barter.CommandLine
