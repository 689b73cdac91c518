import Barter.Proofs.Amount.Price
import Barter.Proofs.Client.Shared
import Barter.Proofs.Sandbox.Freshness
import Barter.Proofs.Sandbox.Proportion

namespace Barter

open History Session

section

variable {id : OrderId} {offer left : Offer} {before : Option Offer} {l : Log} {trail : List Log}

/-- The price of a fill is rounded down, so it leaves the price of the rest no worse for the maker.
-/
theorem Chapter.isLeftOf (h : Chapter id (some offer) l (some left)) (hnew : ¬ l.IsOf .make id) :
    left.toTerms.IsLeftOf offer.toTerms := by
  cases h with
  | made _ _ _ hof => exact absurd hof hnew
  | bumped => exact .refl _
  | reduced _ _ _ _ hgive hpay hbuy pay_pos buy_pos =>
      have hpos : 0 < offer.payAmount.raw.toNat := by omega
      have hin := (InProportion.refl _ _).fill hpos (Nat.le_refl _) hgive hpay hbuy
      refine ⟨by omega, fun _ => buy_pos, ?_⟩
      rw [Nat.mul_comm offer.payAmount.raw.toNat]
      exact hin.le

theorem Life.isLeftOf (h : Life id before trail (some left)) (hnew : ∀ l ∈ trail, ¬ l.IsOf .make id) :
    ∃ offer, before = some offer ∧ left.toTerms.IsLeftOf offer.toTerms := by
  generalize hafter : some left = after at h
  induction h with
  | done => exact ⟨left, hafter.symm, .refl _⟩
  | @next before between after l rest hl _ ih =>
      have hfirst : ¬ l.IsOf .make id := hnew l List.mem_cons_self
      obtain ⟨mid, rfl, hleft⟩ := ih (fun l hl => hnew l (List.mem_cons_of_mem _ hl)) hafter
      cases before with
      | none => exact absurd hl.isOf_of_none hfirst
      | some offer => exact ⟨offer, rfl, hleft.trans (hl.isLeftOf hfirst)⟩

end

namespace Sandbox

variable {s : Sandbox} {actions : List SandboxAction} {id : OrderId} {left : Offer}

theorem isLeftOf_perform (hkept : ¬ Sometime (·.Puts · id) s actions)
    (hleft : (s.perform actions).offer? id = some left) :
    ∃ offer, s.offer? id = some offer ∧ left.toTerms.IsLeftOf offer.toTerms := by
  obtain ⟨trail, hlife, hnew⟩ := perform_life hkept
  rw [hleft] at hlife
  exact hlife.isLeftOf hnew

theorem market_perform (s : Sandbox) (actions : List SandboxAction) :
    (s.perform actions).market = s.market := by
  induction actions generalizing s with
  | nil => rfl
  | cons a rest ih => exact (ih (s.act a)).trans (s.market_act a)

end Sandbox

/-- A client can only be shown an order that is there, as it is there. -/
theorem Client.eq_of_order_present {s : Sandbox} {id : OrderId} {absent : Std.ExtTreeSet OrderId}
    {o : Order}
    (h : (Client.order Sandbox.ledger s.market id ⟨absent, s⟩).1 = .ok (.present o)) :
    ∃ offer, s.offer? id = some offer ∧ o = offer.order s.market id := by
  have hcall := s.call_answer (q := .offer id) rfl
  rw [Sandbox.answer] at hcall
  by_cases hmem : id ∈ absent
  · rw [order_of_mem hmem] at h
    cases h
  · cases hoffer : s.offer? id with
    | none =>
        rw [hoffer] at hcall
        rw [order_of_empty hmem hcall] at h
        cases h
    | some offer =>
        rw [hoffer] at hcall
        rw [order_of_live hmem hcall] at h
        simp only at h
        split at h
        · cases h
        · cases h
          exact ⟨offer, rfl, rfl⟩

/-- Takes never make the price worse for the maker: neither the proportion of what is left of an
order, nor the prices that clients see. -/
theorem prices_favour_maker (s : Sandbox) (id : OrderId) (actions : List SandboxAction)
    (hkept : ¬ Sandbox.Sometime (·.Puts · id) s actions) (left : Offer)
    (hleft : (s.perform actions).offer? id = some left) :
    ∀ before rest, actions = before ++ rest →
      ∃ offer, (s.perform before).offer? id = some offer ∧
        left.payAmount.raw.toNat * offer.buyAmount.raw.toNat ≤
          offer.payAmount.raw.toNat * left.buyAmount.raw.toNat ∧
        ∀ absent absent' o o',
          (Client.order Sandbox.ledger s.market id ⟨absent, s.perform before⟩).1 =
            .ok (.present o) →
          (Client.order Sandbox.ledger s.market id ⟨absent', s.perform actions⟩).1 =
            .ok (.present o') →
          o'.sellToBuyPrice ≤ o.sellToBuyPrice ∧
            ∀ price price', o.buyToSellPrice? = some price → o'.buyToSellPrice? = some price' →
              price ≤ price' := by
  rintro before rest rfl
  have hrest := (not_or.mp (mt Sandbox.sometime_append.mpr hkept)).2
  rw [Sandbox.perform_append] at hleft ⊢
  obtain ⟨offer, hoffer, hleftOf⟩ := Sandbox.isLeftOf_perform hrest hleft
  refine ⟨offer, hoffer, hleftOf.cross_le, fun absent absent' o o' hread hread' => ?_⟩
  rw [← s.market_perform before] at hread hread'
  rw [← Sandbox.market_perform _ rest] at hread'
  obtain ⟨found, hfound, rfl⟩ := Client.eq_of_order_present hread
  obtain ⟨found', hfound', rfl⟩ := Client.eq_of_order_present hread'
  obtain rfl := Option.some.inj (hfound.symm.trans hoffer)
  obtain rfl := Option.some.inj (hfound'.symm.trans hleft)
  exact ⟨Order.sellToBuyPrice_le hleftOf, fun _ _ => Order.buyToSellPrice_le hleftOf⟩

def trialTakes : List SandboxAction :=
  [.submit ((Command.take 1 ⟨.ofUInt64 1⟩).intent Sandbox.trial.market),
    .setSender (Bytes.ofNat 20 9),
    .submit ((Command.take 1 ⟨.ofUInt64 1⟩).intent Sandbox.trial.market)]

theorem prices_favour_maker_of_trial :
    let s := Sandbox.trial.insert (Sandbox.trial.offerOf Sandbox.trialTerms)
    let asked (t : Sandbox) := (Client.order Sandbox.ledger s.market 1 ⟨∅, t⟩).1
    ∃ o o', asked s = .ok (.present o) ∧ asked (s.perform trialTakes) = .ok (.present o') ∧
      o.payAmount.raw.toNat = 3 ∧ o'.payAmount.raw.toNat = 1 ∧
      o'.sellToBuyPrice ≤ o.sellToBuyPrice := by
  intro s asked
  obtain ⟨left, hleft⟩ : ∃ left, (s.perform trialTakes).offer? 1 = some left := ⟨_, rfl⟩
  have hkept : ¬ Sandbox.Sometime (·.Puts · 1) s trialTakes := by
    simp only [trialTakes, Sandbox.Sometime, Sandbox.puts_submit_iff, not_or]
    refine ⟨by decide, ?_, by decide, not_false⟩
    rintro (⟨⟨⟩⟩ | ⟨⟩)
  obtain ⟨offer, _, _, hprices⟩ := prices_favour_maker s 1 trialTakes hkept left hleft [] _ rfl
  exact ⟨_, _, rfl, rfl, by decide, by decide, (hprices ∅ ∅ _ _ rfl rfl).1⟩

end Barter
