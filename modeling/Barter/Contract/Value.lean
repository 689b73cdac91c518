import Barter.Address
import Barter.Wad

namespace Barter

inductive ValueKind where
  | address
  | uint
  | bool
  | bytes32
deriving DecidableEq

def ValueKind.name : ValueKind → String
  | .address => "address"
  | .uint => "uint"
  | .bool => "bool"
  | .bytes32 => "bytes32"

inductive Value where
  | address (a : Address)
  | uint (w : Word)
  | bool (b : Bool)
  | bytes32 (h : Hash)
deriving DecidableEq

/-- The number under which a market keeps an order; zero is never one. -/
abbrev OrderId := UInt64

namespace Value

def kind : Value → ValueKind
  | .address _ => .address
  | .uint _ => .uint
  | .bool _ => .bool
  | .bytes32 _ => .bytes32

def orderId (id : OrderId) : Value :=
  .bytes32 (Bytes.ofNat 32 id.toNat)

theorem orderId_inj {id other : OrderId} : orderId id = orderId other ↔ id = other := by
  refine ⟨fun h => ?_, congrArg orderId⟩
  have hbytes : Bytes.ofNat 32 id.toNat = Bytes.ofNat 32 other.toNat := Value.bytes32.inj h
  have hword := congrArg Word.ofBytes hbytes
  rw [Word.ofBytes_ofNat, Word.ofBytes_ofNat] at hword
  exact UInt64.toNat_inj.mp (congrArg Word.toNat hword)

def amount (a : Wad) : Value :=
  .uint a.raw

def number (n : UInt64) : Value :=
  .uint (.ofUInt64 n)

end Value

end Barter
