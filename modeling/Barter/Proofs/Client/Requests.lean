import Barter.Client.Events
import Barter.Client.Trading
import Barter.Proofs.Client.Lookup

namespace Barter

/-- Whatever the ledger is asked to do, it goes from one state to another as `R` says; and so does
one that is asked nothing, or one thing after the other. -/
structure Ledger.Respects {σ : Type} (l : Ledger σ) (R : σ → σ → Prop) : Prop where
  refl : ∀ s, R s s
  trans : ∀ {s t u}, R s t → R t u → R s u
  call : ∀ contract method args s, R s (l.call contract method args s).2
  submit : ∀ intent s, R s (l.submit intent s).2
  pastLogs : ∀ contract event blocks s, R s (l.pastLogs contract event blocks s).2
  subscribe : ∀ contract event s, R s (l.subscribe contract event s).2
  approve : ∀ token spender name s, R s (l.approve token spender name s).2

def Work.Respects {σ α : Type} (R : σ → σ → Prop) (w : Work σ α) : Prop :=
  ∀ v, R v.ledger (w v).2.ledger

namespace Ledger.Respects

variable {σ α β : Type} {l : Ledger σ} {R : σ → σ → Prop} (h : l.Respects R) (market : Address)

include h

theorem still {w : Work σ α} (hw : ∀ v, (w v).2.ledger = v.ledger) : w.Respects R := by
  intro v
  rw [hw]
  exact h.refl _

theorem bind {x : Work σ α} {f : α → Work σ β} (hx : x.Respects R) (hf : ∀ a, (f a).Respects R) :
    (x >>= f).Respects R := by
  intro v
  have hfirst := hx v
  rw [Step.bind_apply]
  generalize x v = done at hfirst ⊢
  rcases done with ⟨e | a, w⟩
  · exact hfirst
  · exact h.trans hfirst (hf a w)

theorem ask (q : Query) : (Barter.ask l market q).Respects R :=
  h.bind (fun v => h.call _ _ _ v.ledger) fun _ => h.still fun _ => rfl

theorem read (result : Except Fault α) : (Work.read result : Work σ α).Respects R :=
  h.still fun _ => rfl

theorem lastOrderId : (Client.lastOrderId l market).Respects R :=
  h.bind (h.ask market _) fun _ => h.read _

theorem order (id : OrderId) : (Client.order l market id).Respects R := by
  refine h.bind (h.still fun _ => rfl) fun seen => ?_
  cases seen with
  | true => exact h.still fun _ => rfl
  | false =>
      refine h.bind (h.ask market _) fun o => h.bind (h.read _) fun found => ?_
      cases found with
      | present found => exact h.still fun _ => rfl
      | absent => exact h.bind (h.still fun _ => rfl) fun _ => h.still fun _ => rfl

theorem ordersFrom (id : OrderId) (found : List Order) (count : Nat) :
    (Client.ordersFrom l market id found count).Respects R := by
  induction count generalizing id found with
  | zero => exact h.still fun _ => rfl
  | succ count ih =>
      refine h.bind (h.order market id) fun answer => ?_
      cases answer with
      | present o => exact ih (id + 1) (o :: found)
      | absent => exact ih (id + 1) found

theorem orders : (Client.orders l market).Respects R :=
  h.bind (h.lastOrderId market) fun last => h.ordersFrom market 1 [] last.toNat

theorem send (c : Command) : (Client.send l market c).Respects R :=
  h.bind (h.still fun _ => rfl) fun intent v => h.submit intent v.ledger

theorem position (terms : Terms) : (Client.position l market terms).Respects R :=
  h.bind (h.still fun _ => rfl) fun _ => h.bind (h.orders market) fun _ => h.still fun _ => rfl

theorem makeAt (terms : Terms) (given : Option OrderId) :
    (Client.makeAt l market terms given).Respects R := by
  refine h.bind (h.still fun _ => rfl) fun _ => ?_
  cases given with
  | some id => exact h.bind (h.still fun _ => rfl) fun _ => h.send market _
  | none => exact h.bind (h.position market terms) fun _ => h.send market _

theorem make (kind : MarketKind) (terms : Terms) :
    (Client.make l market kind terms).Respects R := by
  unfold Client.make
  split
  · exact h.makeAt market terms none
  · exact h.send market _

theorem flag (q : Query) : (Client.flag l market q).Respects R :=
  h.bind (h.ask market q) fun _ => h.read _

theorem closeSeconds : (Client.closeSeconds l market).Respects R :=
  h.bind (h.ask market _) fun _ => h.read _

theorem closeTime : (Client.closeTime l market).Respects R :=
  h.bind (h.closeSeconds market) fun _ => h.still fun _ => rfl

theorem approveAll (kind : MarketKind) (tokens : List Address) :
    (Client.approve l market kind tokens).Respects R := by
  induction tokens with
  | nil => exact h.still fun _ => rfl
  | cons token rest ih => exact h.bind (fun v => h.approve _ _ _ v.ledger) fun _ => ih

theorem pastEvents (kind : EventKind) (blocks : UInt64) :
    (Client.pastEvents l market kind blocks).Respects R :=
  h.bind (fun v => h.pastLogs _ _ _ v.ledger) fun _ => h.still fun _ => rfl

end Ledger.Respects

end Barter
