import Barter.Contract.Log
import Barter.Failure
import Barter.Offer

namespace Barter

structure Origin where
  block : UInt64
  transaction : Hash
deriving DecidableEq

structure Announcement extends Terms where
  id : OrderId
  maker : Address
  timestamp : UInt64
  origin : Origin
deriving DecidableEq

/-- A taker received `takeAmount` of the token on sale and paid `giveAmount` for it. -/
structure Fill where
  id : OrderId
  maker : Address
  taker : Address
  payToken : Address
  takeAmount : Wad
  buyToken : Address
  giveAmount : Wad
  timestamp : UInt64
  origin : Origin
deriving DecidableEq

inductive Event where
  | make (order : Announcement)
  | bump (order : Announcement)
  | take (fill : Fill)
  | kill (order : Announcement)
deriving DecidableEq

namespace Log

def field (l : Log) (name : String) : Except LogFault Value :=
  match l.args[name]? with
  | some v => .ok v
  | none => .error (.missing name)

def address (l : Log) (name : String) : Except LogFault Address := do
  match ← l.field name with
  | .address a => .ok a
  | v => .error (.mistyped name .address v.kind)

def amount (l : Log) (name : String) : Except LogFault Wad := do
  match ← l.field name with
  | .uint w => .ok ⟨w⟩
  | v => .error (.mistyped name .uint v.kind)

def narrow (name : String) (w : Word) : Except LogFault UInt64 :=
  match w.toUInt64? with
  | some n => .ok n
  | none => .error (.tooLarge name w)

def number (l : Log) (name : String) : Except LogFault UInt64 := do
  match ← l.field name with
  | .uint w => narrow name w
  | v => .error (.mistyped name .uint v.kind)

def orderId (l : Log) (name : String) : Except LogFault OrderId := do
  match ← l.field name with
  | .bytes32 h => narrow name (.ofBytes h)
  | .uint w => narrow name w
  | v => .error (.mistyped name .bytes32 v.kind)

def origin (l : Log) : Origin :=
  ⟨l.block, l.transaction⟩

def announcement (l : Log) : Except LogFault Announcement := do
  let id ← l.orderId "id"
  let maker ← l.address "maker"
  let payToken ← l.address "pay_gem"
  let payAmount ← l.amount "pay_amt"
  let buyToken ← l.address "buy_gem"
  let buyAmount ← l.amount "buy_amt"
  let timestamp ← l.number "timestamp"
  return { id, maker, payToken, payAmount, buyToken, buyAmount, timestamp, origin := l.origin }

def fill (l : Log) : Except LogFault Fill := do
  let id ← l.orderId "id"
  let maker ← l.address "maker"
  let taker ← l.address "taker"
  let payToken ← l.address "pay_gem"
  let takeAmount ← l.amount "take_amt"
  let buyToken ← l.address "buy_gem"
  let giveAmount ← l.amount "give_amt"
  let timestamp ← l.number "timestamp"
  return { id, maker, taker, payToken, takeAmount, buyToken, giveAmount, timestamp,
           origin := l.origin }

def read (l : Log) (kind : EventKind) : Except LogFault Event :=
  if l.event ≠ kind.name then .error (.otherEvent l.event)
  else
    match kind with
    | .make => Event.make <$> l.announcement
    | .bump => Event.bump <$> l.announcement
    | .take => Event.take <$> l.fill
    | .kill => Event.kill <$> l.announcement

end Log

def Event.ofLog (kind : EventKind) (l : Log) : Except Failure Event :=
  (l.read kind).mapError (.malformedEvent kind)

end Barter
