import Barter.Client.View

namespace Barter.Client

variable {σ : Type} (l : Ledger σ) (market : Address)

def pastEvents (kind : EventKind) (blocks : UInt64) : Work σ (List (Except Failure Event)) := do
  let logs ← Work.ask .queryFailed (l.pastLogs market kind.name blocks)
  return logs.map (Event.ofLog kind)

def subscribe (kind : EventKind) : Work σ Stream :=
  Work.ask .sourceFailed (l.subscribe market kind.name)

end Barter.Client
