import Std.Data.ExtTreeMap.Lemmas
import Barter.Contract.Value

namespace Barter

structure Log where
  contract : Address
  event : String
  block : UInt64
  transaction : Hash
  args : Std.ExtTreeMap String Value
deriving DecidableEq

end Barter
