import Barter.Proofs.Amount.Price
import Barter.Proofs.Client.Estimate

namespace Barter

open Client

def Request.isCall : Request → Bool
  | .call _ _ _ => true
  | _ => false

def View.unrecorded {σ : Type} (v : View (Recorded σ)) : View σ :=
  ⟨v.absent, v.ledger.inner⟩

/-- The request asks questions only, fails on their answers only, and comes to the same where
nothing is written down. -/
def Work.Reads {σ α : Type} (x : Work (Recorded σ) α) (y : Work σ α) : Prop :=
  ∀ v, ∃ asked : List Request, (∀ r ∈ asked, r.isCall = true) ∧
    (x v).2.ledger.seen = v.ledger.seen ++ asked ∧
    (∀ e, (x v).1 = .error e → ∃ cause, e = .queryFailed cause) ∧
    y v.unrecorded = ((x v).1, (x v).2.unrecorded)

namespace Work.Reads

variable {σ α β : Type}

theorem pure (a : α) : Reads (Pure.pure a : Work (Recorded σ) α) (Pure.pure a : Work σ α) :=
  fun _ => ⟨[], nofun, (List.append_nil _).symm, nofun, rfl⟩

theorem read (result : Except Fault α) :
    Reads (Work.read result : Work (Recorded σ) α) (Work.read result : Work σ α) := by
  refine fun v => ⟨[], nofun, (List.append_nil _).symm, fun e he => ?_, rfl⟩
  cases result with
  | ok a => cases he
  | error cause => exact ⟨cause, (Except.error.inj he).symm⟩

theorem isAbsent (id : OrderId) :
    Reads (Work.isAbsent id : Work (Recorded σ) Bool) (Work.isAbsent id : Work σ Bool) :=
  fun _ => ⟨[], nofun, (List.append_nil _).symm, nofun, rfl⟩

theorem markAbsent (id : OrderId) :
    Reads (Work.markAbsent id : Work (Recorded σ) Unit) (Work.markAbsent id : Work σ Unit) :=
  fun _ => ⟨[], nofun, (List.append_nil _).symm, nofun, rfl⟩

theorem bind {x : Work (Recorded σ) α} {y : Work σ α} {f : α → Work (Recorded σ) β}
    {g : α → Work σ β} (hx : Reads x y) (hf : ∀ a, Reads (f a) (g a)) :
    Reads (x >>= f) (y >>= g) := by
  intro v
  obtain ⟨first, hcalls, hseen, hfails, halike⟩ := hx v
  rw [Step.bind_apply, Step.bind_apply, halike]
  generalize x v = done at hseen hfails ⊢
  rcases done with ⟨e | a, w⟩
  · refine ⟨first, hcalls, hseen, fun e' he => ?_, rfl⟩
    obtain rfl := Except.error.inj he
    exact hfails e rfl
  · obtain ⟨rest, hcalls', hseen', hfails', halike'⟩ := hf a w
    refine ⟨first ++ rest, List.forall_mem_append.mpr ⟨hcalls, hcalls'⟩, ?_, hfails', halike'⟩
    rw [hseen', hseen, List.append_assoc]

theorem ask (l : Ledger σ) (market : Address) (q : Query) :
    Reads (Barter.ask l.recorded market q) (Barter.ask l market q) := by
  refine bind (fun v => ⟨[.call market q.method q.args], ?_, rfl, fun e he => ?_, rfl⟩)
    fun _ => pure _
  · exact List.forall_mem_singleton.mpr rfl
  · have hcall : ((l.call market q.method q.args v.ledger.inner).1.mapError Failure.queryFailed) =
      .error e := he
    cases hanswer : (l.call market q.method q.args v.ledger.inner).1 with
    | ok values =>
        rw [hanswer] at hcall
        cases hcall
    | error cause =>
        rw [hanswer] at hcall
        exact ⟨cause, (Except.error.inj hcall).symm⟩

theorem lastOrderId (l : Ledger σ) (market : Address) :
    Reads (Client.lastOrderId l.recorded market) (Client.lastOrderId l market) :=
  (ask l market .lastOfferId).bind fun _ => read _

theorem order (l : Ledger σ) (market : Address) (id : OrderId) :
    Reads (Client.order l.recorded market id) (Client.order l market id) := by
  refine (isAbsent id).bind fun seen => ?_
  cases seen with
  | true => exact pure _
  | false =>
      refine (ask l market (.offer id)).bind fun o => (read _).bind fun found => ?_
      cases found with
      | present found => exact pure _
      | absent => exact (markAbsent id).bind fun _ => pure _

theorem ordersFrom (l : Ledger σ) (market : Address) (id : OrderId) (found : List Order)
    (count : Nat) :
    Reads (Client.ordersFrom l.recorded market id found count)
      (Client.ordersFrom l market id found count) := by
  induction count generalizing id found with
  | zero => exact pure _
  | succ count ih =>
      refine (order l market id).bind fun answer => ?_
      cases answer with
      | present o => exact ih (id + 1) (o :: found)
      | absent => exact ih (id + 1) found

theorem orders (l : Ledger σ) (market : Address) :
    Reads (Client.orders l.recorded market) (Client.orders l market) :=
  (lastOrderId l market).bind fun last => ordersFrom l market 1 [] last.toNat

end Work.Reads

namespace Terms

variable {t : Terms}

def HasZero (t : Terms) : Prop :=
  t.payAmount.raw.toNat = 0 ∨ t.buyAmount.raw.toNat = 0

theorem not_hasZero_iff : ¬ t.HasZero ↔ 0 < t.payAmount.raw.toNat ∧ 0 < t.buyAmount.raw.toNat := by
  rw [HasZero, not_or, Nat.pos_iff_ne_zero, Nat.pos_iff_ne_zero]

theorem check_of_not_hasZero (h : ¬ t.HasZero) : t.check = .ok () :=
  check_eq_ok_iff.mpr (not_hasZero_iff.mp h)

structure HasPrice (t : Terms) (price : Wad) : Prop where
  fits : t.payAmount.raw.toNat * Wad.one < Word.size
  quotient : price.raw.toNat = t.payAmount.raw.toNat * Wad.one / t.buyAmount.raw.toNat

theorem price_cases (h : ¬ t.HasZero) :
    Word.size ≤ t.payAmount.raw.toNat * Wad.one ∧
        (∃ cause, t.price = .error (.invalidArgument cause)) ∨
      ∃ price, t.price = .ok price ∧ t.HasPrice price := by
  obtain ⟨hpay, hbuy⟩ := not_hasZero_iff.mp h
  cases hquotient : t.payAmount.div? t.buyAmount with
  | none =>
      have hlarge := (Wad.div?_eq_none_iff.mp hquotient).resolve_left (Nat.ne_of_gt hbuy)
      refine .inl ⟨hlarge, .priceOverflow t.payAmount t.buyAmount, ?_⟩
      rw [price, check_of_not_hasZero h, hquotient]
      rfl
  | some price =>
      obtain ⟨_, hfits, hprice⟩ := Wad.div?_eq_some_iff.mp hquotient
      exact .inr ⟨price, price_of_div? hpay hbuy hquotient, hfits, hprice⟩

end Terms

inductive Making where
  | ofKind (kind : MarketKind)
  | behind (given : Option OrderId)

namespace Making

variable {σ : Type} {l : Ledger σ} {market : Address} {terms : Terms} {v : View σ}

def work (l : Ledger σ) (market : Address) (terms : Terms) : Making → Work σ Pending
  | .ofKind kind => make l market kind terms
  | .behind given => makeAt l market terms given

end Making

namespace Client

variable {σ : Type} {l : Ledger σ} {market : Address} {terms : Terms} {v w : View σ}

end Client

namespace Early

variable {σ : Type} {l : Ledger σ} {v w : View (Recorded σ)} {calls : List Request}

end Early

section

variable {σ : Type} (l : Ledger σ) (market : Address) (terms : Terms) (v : View (Recorded σ))

end

end Barter
