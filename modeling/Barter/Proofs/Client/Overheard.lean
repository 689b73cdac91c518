import Barter.Client.Orders
import Barter.Proofs.Client.Lookup

namespace Barter

structure Exchange where
  contract : Address
  method : String
  args : List Value
  answer : Except Fault (List Value)

structure Overheard (σ : Type) where
  inner : σ
  heard : List Exchange

namespace Ledger

variable {σ ε α : Type}

def unheard (step : Step σ ε α) : Step (Overheard σ) ε α := fun o =>
  let (result, after) := step o.inner
  (result, ⟨after, o.heard⟩)

def overheard (l : Ledger σ) : Ledger (Overheard σ) where
  call contract method args o :=
    let (answer, after) := l.call contract method args o.inner
    (answer, ⟨after, o.heard ++ [⟨contract, method, args, answer⟩]⟩)
  submit intent := unheard (l.submit intent)
  pastLogs contract event blocks := unheard (l.pastLogs contract event blocks)
  subscribe contract event := unheard (l.subscribe contract event)
  approve token spender spenderName := unheard (l.approve token spender spenderName)

theorem overheard_call {l : Ledger σ} {contract : Address} {method : String} {args : List Value}
    {o : Overheard σ} {answer : Except Fault (List Value)} {after : σ}
    (h : l.call contract method args o.inner = (answer, after)) :
    l.overheard.call contract method args o =
      (answer, ⟨after, o.heard ++ [⟨contract, method, args, answer⟩]⟩) := by
  simp only [overheard, h]

end Ledger

def View.unheard {σ : Type} (v : View (Overheard σ)) : View σ :=
  ⟨v.absent, v.ledger.inner⟩

def Work.Alike {σ α : Type} (x : Work (Overheard σ) α) (y : Work σ α) : Prop :=
  ∀ v, y v.unheard = ((x v).1, (x v).2.unheard)

namespace Work.Alike

variable {σ α β : Type}

theorem pure (a : α) : Alike (Pure.pure a : Work (Overheard σ) α) (Pure.pure a : Work σ α) :=
  fun _ => rfl

theorem bind {x : Work (Overheard σ) α} {y : Work σ α} {f : α → Work (Overheard σ) β}
    {g : α → Work σ β} (hx : Alike x y) (hf : ∀ a, Alike (f a) (g a)) :
    Alike (x >>= f) (y >>= g) := by
  intro v
  rw [Step.bind_apply, Step.bind_apply, hx v]
  rcases x v with ⟨e | a, w⟩
  · rfl
  · exact hf a w

theorem read (result : Except Fault α) :
    Alike (Work.read result : Work (Overheard σ) α) (Work.read result : Work σ α) :=
  fun _ => rfl

theorem ask (l : Ledger σ) (market : Address) (q : Query) :
    Alike (Barter.ask l.overheard market q) (Barter.ask l market q) :=
  bind (fun _ => rfl) fun _ => pure _

theorem lastOrderId (l : Ledger σ) (market : Address) :
    Alike (Client.lastOrderId l.overheard market) (Client.lastOrderId l market) :=
  (ask l market .lastOfferId).bind fun _ => read _

theorem order (l : Ledger σ) (market : Address) (id : OrderId) :
    Alike (Client.order l.overheard market id) (Client.order l market id) := by
  refine bind (fun _ => rfl) fun seen => ?_
  cases seen with
  | true => exact pure _
  | false =>
      refine (ask l market (.offer id)).bind fun o => (read _).bind fun found => ?_
      cases found with
      | present found => exact pure _
      | absent => exact bind (fun _ => rfl) fun _ => pure _

theorem ordersFrom (l : Ledger σ) (market : Address) (id : OrderId) (found : List Order)
    (count : Nat) :
    Alike (Client.ordersFrom l.overheard market id found count)
      (Client.ordersFrom l market id found count) := by
  induction count generalizing id found with
  | zero => exact pure _
  | succ count ih =>
      refine (order l market id).bind fun answer => ?_
      cases answer with
      | present o => exact ih (id + 1) (o :: found)
      | absent => exact ih (id + 1) found

theorem orders (l : Ledger σ) (market : Address) :
    Alike (Client.orders l.overheard market) (Client.orders l market) :=
  (lastOrderId l market).bind fun last => ordersFrom l market 1 [] last.toNat

end Work.Alike

end Barter
