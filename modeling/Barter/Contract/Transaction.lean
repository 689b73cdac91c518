import Barter.Event

namespace Barter

structure Intent where
  contract : Address
  method : String
  args : List Value
deriving DecidableEq

def Intent.text (i : Intent) : String :=
  s!"{i.contract.checksum}.{i.method}({i.args.length} args)"

structure Receipt where
  transaction : Hash
  block : UInt64
  logs : List Log
deriving DecidableEq

def Receipt.createdOrderId (r : Receipt) : Except Failure (Option OrderId) :=
  match r.logs.find? fun l => l.event = EventKind.make.name with
  | none => .ok none
  | some l => (l.announcement.map fun order => some order.id).mapError (.malformedEvent .make)

/-- How a transaction that was handed in ends: `none` where nobody is left to tell. -/
structure Pending where
  transaction : Hash
  outcome : Option (Except Fault Receipt)

def Pending.wait (p : Pending) : Except Failure Receipt :=
  match p.outcome with
  | some (.ok r) => .ok r
  | some (.error e) => .error (.transactionFailed e)
  | none => .error (.transactionFailed (.transport (.abandoned p.transaction)))

end Barter
