import Std.Data.ExtTreeSet.Lemmas
import Barter.Command
import Barter.Ledger

namespace Barter

structure View (σ : Type) where
  absent : Std.ExtTreeSet OrderId
  ledger : σ

abbrev Work (σ α : Type) :=
  Step (View σ) Failure α

namespace Work

variable {σ α : Type}

def of (result : Except Failure α) : Work σ α := fun v =>
  (result, v)

def ask (wrap : Fault → Failure) (step : Step σ Fault α) : Work σ α := fun v =>
  let (result, after) := step v.ledger
  (result.mapError wrap, { v with ledger := after })

def read (result : Except Fault α) : Work σ α :=
  of (result.mapError .queryFailed)

def isAbsent (id : OrderId) : Work σ Bool := fun v =>
  (.ok (v.absent.contains id), v)

def markAbsent (id : OrderId) : Work σ Unit := fun v =>
  (.ok (), { v with absent := v.absent.insert id })

end Work

def ask {σ : Type} (l : Ledger σ) (market : Address) (q : Query) : Work σ Outputs := do
  let values ← Work.ask .queryFailed (l.call market q.method q.args)
  return ⟨q.method, values⟩

end Barter
