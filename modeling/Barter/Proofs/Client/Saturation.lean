import Barter.Proofs.Amount.Price
import Barter.Proofs.Client.Listing
import Barter.Proofs.Sandbox.Run

namespace Barter

open Client

/-- A client is shown an order just where it does not know the id to be gone and the answer of the
ledger holds the order. -/
theorem Client.order_eq_present_iff {σ : Type} {l : Ledger σ} {market : Address} {id : OrderId}
    {v : View σ} {o : Order} :
    (order l market id v).1 = .ok (.present o) ↔
      id ∉ v.absent ∧ o.market = market ∧ o.id = id ∧
        ∃ values, (l.call market (Query.offer id).method (Query.offer id).args v.ledger).1 =
          .ok values ∧ o.IsIn values := by
  by_cases hmem : id ∈ v.absent
  · rw [order_of_mem hmem]
    exact iff_of_false nofun fun h => h.1 hmem
  · rcases hcall : l.call market (Query.offer id).method (Query.offer id).args v.ledger with
      ⟨answer, after⟩
    have hshown : (order l market id v).1 = .ok (.present o) ↔
        (answer >>= fun values => Lookup.ofSlot market id ⟨"offers", values⟩) =
          .ok (.present o) := by
      rw [order_of_not_mem hmem hcall]
      cases answer >>= fun values => Lookup.ofSlot market id ⟨"offers", values⟩ with
      | error cause => exact iff_of_false nofun nofun
      | ok found =>
          cases found with
          | absent => exact iff_of_false nofun nofun
          | present found => simp only [Except.ok.injEq]
    rw [hshown, bind_eq_ok_iff]
    simp only [Lookup.ofSlot_eq_present_iff]
    constructor
    · rintro ⟨values, hanswer, hmarket, hid, hin⟩
      exact ⟨hmem, hmarket, hid, values, hanswer, hin⟩
    · rintro ⟨_, hmarket, hid, values, hanswer, hin⟩
      exact ⟨values, hanswer, hmarket, hid, hin⟩

/-- Every order that wants something is shown. Its price is the quotient of the amounts, rounded
down, where what is on sale can be scaled, and the largest price beyond that. -/
theorem shown_price {σ : Type} (l : Ledger σ) (market : Address) (id : OrderId) (v : View σ)
    (o : Order) :
    let shown := (order l market id v).1 = .ok (.present o)
    let pay := o.payAmount.raw.toNat
    let buy := o.buyAmount.raw.toNat
    (shown ↔ id ∉ v.absent ∧ o.market = market ∧ o.id = id ∧
      ∃ values, (l.call market (Query.offer id).method (Query.offer id).args v.ledger).1 =
        .ok values ∧ o.IsIn values) ∧
    (pay < 2 ^ 128 → pay * Wad.one < Word.size) ∧
    (shown →
      (pay * Wad.one < Word.size →
        o.sellToBuyPrice.raw.toNat = pay * Wad.one / buy ∧ o.sellToBuyPrice ≠ .max) ∧
      (Word.size ≤ pay * Wad.one → o.sellToBuyPrice = .max)) := by
  intro shown pay buy
  refine ⟨order_eq_present_iff, fun hpay => ?_, fun hshown => ?_⟩
  · exact (Nat.mul_lt_mul_of_pos_right hpay (by decide)).trans (by decide)
  · obtain ⟨_, _, _, values, _, hin⟩ := order_eq_present_iff.mp hshown
    have hmax := Order.sellToBuyPrice_eq_max_iff hin.buy_pos
    refine ⟨fun hfits => ⟨Order.sellToBuyPrice_of_fits hin.buy_pos hfits, ?_⟩, hmax.mpr⟩
    intro heq
    exact Nat.not_le.mpr hfits (hmax.mp heq)

/-- An order is made for equal amounts, which are both too large to be scaled: it is shown, and
sells at the largest price instead of at one. -/
theorem shown_price_saturated :
    let large : Wad := ⟨⟨2 ^ 200, by decide⟩⟩
    let terms : Terms := { Sandbox.trialTerms with payAmount := large, buyAmount := large }
    let made := Sandbox.trial.submit ((Command.make terms).intent Sandbox.trial.market)
    ∃ receipt o, made.1 = .ok ⟨Sandbox.trial.nextHash, some (.ok receipt)⟩ ∧
      (order Sandbox.ledger Sandbox.trial.market 1 ⟨∅, made.2⟩).1 = .ok (.present o) ∧
      2 ^ 128 ≤ o.payAmount.raw.toNat ∧ o.sellToBuyPrice = .max ∧
      o.payAmount.raw.toNat * Wad.one / o.buyAmount.raw.toNat = Wad.one :=
  ⟨_, _, rfl, rfl, by decide, by decide, by decide⟩

theorem shown_price_of_trial :
    let s := Sandbox.trial.insert (Sandbox.trial.offerOf Sandbox.trialTerms)
    ∃ o, (order Sandbox.ledger s.market 1 ⟨∅, s⟩).1 = .ok (.present o) ∧
      o.sellToBuyPrice.raw.toNat = 3 * Wad.one / 5 ∧ o.sellToBuyPrice ≠ .max := by
  intro s
  obtain ⟨o, ho, hpay, hbuy⟩ : ∃ o,
      (order Sandbox.ledger s.market 1 ⟨∅, s⟩).1 = .ok (.present o) ∧
        o.payAmount.raw.toNat = 3 ∧ o.buyAmount.raw.toNat = 5 := ⟨_, rfl, rfl, rfl⟩
  obtain ⟨_, _, hprice⟩ := shown_price Sandbox.ledger s.market 1 ⟨∅, s⟩ o
  rw [hpay, hbuy] at hprice
  obtain ⟨hquotient, hmax⟩ := (hprice ho).1 (by decide)
  exact ⟨o, ho, hquotient, hmax⟩

end Barter
