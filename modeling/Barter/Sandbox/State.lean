import Std.Data.ExtTreeSet.Lemmas
import Barter.Contract.Log
import Barter.MarketKind
import Barter.Offer

namespace Barter

structure Channel where
  event : String
  isOpen : Bool
  sent : List Log
deriving DecidableEq

namespace Channel

def deliver (c : Channel) (log : Log) : Channel :=
  if c.isOpen && c.event = log.event then { c with sent := c.sent ++ [log] } else c

def close (c : Channel) : Channel :=
  { c with isOpen := false }

end Channel

/-- A ledger in memory that holds one market. Balances are not kept, and offers that cross are not
matched with each other. -/
structure Sandbox where
  market : Address
  kind : MarketKind
  sender : Address
  now : UInt64
  block : UInt64
  nonce : UInt64
  offers : Std.ExtTreeMap OrderId Offer
  lastId : OrderId
  closeTime : UInt64
  buyEnabled : Bool
  matchingEnabled : Bool
  whitelist : Std.ExtTreeSet TokenPair
  logs : List Log
  channels : List Channel
  approvals : List (Address × Address)
  queries : Nat

namespace Sandbox

def new (market : Address) (kind : MarketKind) (sender : Address) (now : UInt64) : Sandbox where
  market := market
  kind := kind
  sender := sender
  now := now
  block := 1
  nonce := 0
  offers := ∅
  lastId := 0
  closeTime := 0xffffffffffffffff
  buyEnabled := true
  matchingEnabled := true
  whitelist := ∅
  logs := []
  channels := []
  approvals := []
  queries := 0

def isClosed (s : Sandbox) : Bool :=
  s.kind.hasExpiry && s.closeTime < s.now

/-- Whether new orders may name the pair. An empty list admits every pair, and order does not
matter. -/
def admits (s : Sandbox) (pair : TokenPair) : Bool :=
  !s.kind.isMatching || s.whitelist.isEmpty || s.whitelist.contains pair ||
    s.whitelist.contains pair.swap

def setSender (s : Sandbox) (sender : Address) : Sandbox :=
  { s with sender := sender }

def setTime (s : Sandbox) (now : UInt64) : Sandbox :=
  { s with now := now }

def setCloseTime (s : Sandbox) (closeTime : UInt64) : Sandbox :=
  { s with closeTime := closeTime }

def setFlags (s : Sandbox) (buyEnabled matchingEnabled : Bool) : Sandbox :=
  { s with buyEnabled := buyEnabled, matchingEnabled := matchingEnabled }

def allowPair (s : Sandbox) (pair : TokenPair) : Sandbox :=
  { s with whitelist := s.whitelist.insert pair }

def resetQueries (s : Sandbox) : Sandbox :=
  { s with queries := 0 }

def reserveIds (s : Sandbox) (id : OrderId) : Sandbox :=
  { s with lastId := max s.lastId id }

def insertAt (s : Sandbox) (id : OrderId) (offer : Offer) : Sandbox :=
  { s.reserveIds id with offers := s.offers.insert id offer }

def nextId (s : Sandbox) : OrderId :=
  s.lastId + 1

def insert (s : Sandbox) (offer : Offer) : Sandbox :=
  { s with lastId := s.nextId, offers := s.offers.insert s.nextId offer }

def offer? (s : Sandbox) (id : OrderId) : Option Offer :=
  s.offers[id]?

theorem offer?_insertAt (s : Sandbox) (id : OrderId) (offer : Offer) (other : OrderId) :
    (s.insertAt id offer).offer? other = if id = other then some offer else s.offer? other := by
  simp [insertAt, reserveIds, offer?, Std.ExtTreeMap.getElem?_insert]

theorem offer?_insert (s : Sandbox) (offer : Offer) (id : OrderId) :
    (s.insert offer).offer? id = if s.nextId = id then some offer else s.offer? id := by
  simp [insert, offer?, Std.ExtTreeMap.getElem?_insert]

def summary (s : Sandbox) : String :=
  let market := s!"market: {s.market.hex}, kind: {s.kind.title}"
  let orders := s!"last_offer_id: {s.lastId.toNat}, active: {s.offers.size}"
  s!"SandboxLedger \x7b {market}, {orders}, block_number: {s.block.toNat} \x7d"

end Sandbox

end Barter
