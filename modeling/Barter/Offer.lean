import Barter.Contract.Value

namespace Barter

structure Terms where
  payToken : Address
  payAmount : Wad
  buyToken : Address
  buyAmount : Wad
deriving DecidableEq

def Terms.pair (t : Terms) : TokenPair :=
  ⟨t.payToken, t.buyToken⟩

structure Offer extends Terms where
  owner : Address
  timestamp : UInt64
deriving DecidableEq

end Barter
