import Barter.Decimal.Reader
import Barter.Json.Market
import Barter.Json.Reader
import Barter.Sandbox.State

namespace Barter

structure SnapshotOrder where
  id : OrderId
  owner : Address
  payToken : Address
  payAmount : String
  buyToken : Address
  buyAmount : String
  timestamp : UInt64
deriving DecidableEq

structure Snapshot where
  address : Address
  kind : MarketKind
  sender : Address
  lastOfferId : OrderId
  orders : List SnapshotOrder
  now : Option UInt64
  closeTime : Option UInt64
  buyEnabled : Bool
  matchingEnabled : Bool
  whitelist : List TokenPair
deriving DecidableEq

namespace SnapshotOrder

def fields : List (String × Json.Layout) :=
  [("id", .plain), ("owner", Address.layout), ("pay_token", Address.layout), ("pay_amount", .plain),
    ("buy_token", Address.layout), ("buy_amount", .plain), ("timestamp", .plain)]

def toJson (o : SnapshotOrder) : Json :=
  .obj
    [("id", .ofUInt64 o.id), ("owner", o.owner.toJson), ("pay_token", o.payToken.toJson),
      ("pay_amount", .str o.payAmount), ("buy_token", o.buyToken.toJson),
      ("buy_amount", .str o.buyAmount), ("timestamp", .ofUInt64 o.timestamp)]

def ofJson? (j : Json) : Option SnapshotOrder := do
  match ← j.fields? fields with
  | [id, owner, payToken, payAmount, buyToken, buyAmount, timestamp] =>
      return {
        id := ← Json.required Json.uint64? id
        owner := ← Json.required Address.ofJson? owner
        payToken := ← Json.required Address.ofJson? payToken
        payAmount := ← Json.required Json.str? payAmount
        buyToken := ← Json.required Address.ofJson? buyToken
        buyAmount := ← Json.required Json.str? buyAmount
        timestamp := ← Json.optional 0 Json.uint64? timestamp }
  | _ => none

end SnapshotOrder

namespace TokenPair

def layout : Json.Layout :=
  .list Address.layout

def toJson (p : TokenPair) : Json :=
  .arr [p.base.toJson, p.quote.toJson]

def ofJson? : Json → Option TokenPair
  | .arr [base, quote] => do
      let base ← Address.ofJson? base
      return ⟨base, ← Address.ofJson? quote⟩
  | _ => none

end TokenPair

namespace Snapshot

def numberOrNull : Option UInt64 → Json
  | some n => .ofUInt64 n
  | none => .null

def fields : List (String × Json.Layout) :=
  [("address", Address.layout), ("kind", .plain), ("sender", Address.layout),
    ("last_offer_id", .plain), ("orders", .list (.record SnapshotOrder.fields)), ("now", .plain),
    ("close_time", .plain), ("buy_enabled", .plain), ("matching_enabled", .plain),
    ("whitelist", .list TokenPair.layout)]

def toJson (s : Snapshot) : Json :=
  .obj
    [("address", s.address.toJson), ("kind", s.kind.toJson), ("sender", s.sender.toJson),
      ("last_offer_id", .ofUInt64 s.lastOfferId),
      ("orders", .arr (s.orders.map SnapshotOrder.toJson)), ("now", numberOrNull s.now),
      ("close_time", numberOrNull s.closeTime), ("buy_enabled", .bool s.buyEnabled),
      ("matching_enabled", .bool s.matchingEnabled),
      ("whitelist", .arr (s.whitelist.map TokenPair.toJson))]

def ofJson? (j : Json) : Option Snapshot := do
  match ← j.fields? fields with
  | [address, kind, sender, lastOfferId, orders, now, closeTime, buyEnabled, matchingEnabled,
      whitelist] =>
      return {
        address := ← Json.required Address.ofJson? address
        kind := ← Json.required MarketKind.ofJson? kind
        sender := ← Json.optional .zero Address.ofJson? sender
        lastOfferId := ← Json.optional 0 Json.uint64? lastOfferId
        orders := ← Json.optional [] (Json.listOf SnapshotOrder.ofJson?) orders
        now := ← Json.optional none (Json.nullable Json.uint64?) now
        closeTime := ← Json.optional none (Json.nullable Json.uint64?) closeTime
        buyEnabled := ← Json.optional true Json.bool? buyEnabled
        matchingEnabled := ← Json.optional true Json.bool? matchingEnabled
        whitelist := ← Json.optional [] (Json.listOf TokenPair.ofJson?) whitelist }
  | _ => none

inductive Defect where
  | unreadable
  | malformed
  | invalidAmount (id : OrderId) (side : Side) (text : String)
  | duplicate (id : OrderId)
  | zeroId
deriving DecidableEq

def Defect.message : Defect → String
  | .unreadable => "Failed to read snapshot"
  | .malformed => "Invalid snapshot JSON"
  | .invalidAmount id side text => s!"Order {id.toNat}: invalid {side.name} '{text}'"
  | .duplicate id => s!"Order id {id.toNat} appears more than once"
  | .zeroId => "Order id 0 is reserved"

def ofText (text : String) : Except Defect Snapshot :=
  match (Json.read? (.record fields) text).bind ofJson? with
  | some s => .ok s
  | none => .error .malformed

end Snapshot

namespace SnapshotOrder

open Snapshot

def amount (o : SnapshotOrder) (side : Side) (text : String) : Except Defect Wad :=
  (Wad.ofText text).mapError fun _ => .invalidAmount o.id side text

/-- The offer that the order describes. Both amounts are read before either is checked. -/
def offer (o : SnapshotOrder) : Except Defect Offer := do
  let payAmount ← o.amount .pay o.payAmount
  let buyAmount ← o.amount .buy o.buyAmount
  if payAmount.isZero then .error (.invalidAmount o.id .pay o.payAmount)
  else if buyAmount.isZero then .error (.invalidAmount o.id .buy o.buyAmount)
  else
    return {
      owner := o.owner
      payToken := o.payToken
      payAmount := payAmount
      buyToken := o.buyToken
      buyAmount := buyAmount
      timestamp := o.timestamp }

end SnapshotOrder

namespace Snapshot

def place (s : Sandbox) (o : SnapshotOrder) : Except Defect Sandbox :=
  if o.id = 0 then .error .zeroId
  else if s.offers.contains o.id then .error (.duplicate o.id)
  else return s.insertAt o.id (← o.offer)

/-- The market that the snapshot describes, at the time `start` if it names none. -/
def sandbox (s : Snapshot) (start : UInt64) : Except Defect Sandbox := do
  let empty : Sandbox :=
    { Sandbox.new s.address s.kind s.sender (s.now.getD start) with
      closeTime := s.closeTime.getD 0xffffffffffffffff
      buyEnabled := s.buyEnabled
      matchingEnabled := s.matchingEnabled
      whitelist := Std.ExtTreeSet.ofList s.whitelist }
  let filled ← s.orders.foldlM place empty
  return filled.reserveIds s.lastOfferId

end Snapshot

end Barter
