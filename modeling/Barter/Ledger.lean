import Barter.Contract.Transaction

namespace Barter

abbrev Step (σ ε α : Type) :=
  ExceptT ε (StateM σ) α

/-- The logs that a subscription delivers: a channel that the ledger goes on filling, or logs that
are already all there. -/
inductive Stream where
  | live (channel : Nat)
  | ended (logs : List Log)
deriving DecidableEq

inductive Stop where
  | fault (cause : Fault)
  | trapped (trap : Trap)
deriving DecidableEq

structure Ledger (σ : Type) where
  call (contract : Address) (method : String) (args : List Value) : Step σ Fault (List Value)
  submit (intent : Intent) : Step σ Stop Pending
  pastLogs (contract : Address) (event : String) (blocks : UInt64) : Step σ Fault (List Log)
  subscribe (contract : Address) (event : String) : Step σ Fault Stream
  approve (token spender : Address) (spenderName : String) : Step σ Fault Unit

inductive Request where
  | call (contract : Address) (method : String) (args : List Value)
  | submit (intent : Intent)
  | pastLogs (contract : Address) (event : String) (blocks : UInt64)
  | subscribe (contract : Address) (event : String)
  | approve (token spender : Address) (spenderName : String)
deriving DecidableEq

structure Recorded (σ : Type) where
  inner : σ
  seen : List Request

namespace Ledger

variable {σ ε α : Type}

def record (request : Request) (step : Step σ ε α) : Step (Recorded σ) ε α := fun r =>
  let (result, after) := step r.inner
  (result, ⟨after, r.seen ++ [request]⟩)

def recorded (l : Ledger σ) : Ledger (Recorded σ) where
  call contract method args := record (.call contract method args) (l.call contract method args)
  submit intent := record (.submit intent) (l.submit intent)
  pastLogs contract event blocks :=
    record (.pastLogs contract event blocks) (l.pastLogs contract event blocks)
  subscribe contract event := record (.subscribe contract event) (l.subscribe contract event)
  approve token spender spenderName :=
    record (.approve token spender spenderName) (l.approve token spender spenderName)

end Ledger

end Barter
