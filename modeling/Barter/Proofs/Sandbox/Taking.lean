import Barter.Proofs.Sandbox.Accounting
import Barter.Proofs.Sandbox.Creation
import Barter.Proofs.Sandbox.Receipts

namespace Barter

namespace Offer

variable {offer : Offer} {quantity given : Wad}

theorem exists_isFill_iff :
    (∃ given, offer.IsFill quantity given) ↔
      0 < quantity.raw.toNat ∧ quantity ≤ offer.payAmount ∧
        quantity.raw.toNat * offer.buyAmount.raw.toNat < Word.size ∧
        0 < quantity.raw.toNat * offer.buyAmount.raw.toNat / offer.payAmount.raw.toNat := by
  constructor
  · rintro ⟨given, h⟩
    exact ⟨h.quantity_pos, h.quantity_le, h.product_lt, h.given_eq ▸ h.given_pos⟩
  · rintro ⟨hpos, hle, hproduct, hgiven⟩
    have hfits := Nat.lt_of_le_of_lt (Nat.div_le_self _ offer.payAmount.raw.toNat) hproduct
    exact ⟨⟨⟨_, hfits⟩⟩, hpos, hle, hproduct, hgiven, rfl⟩

/-- All of an offer can be taken, and costs all of the amount wanted. -/
theorem IsPositive.isFill (h : offer.IsPositive)
    (hproduct : offer.payAmount.raw.toNat * offer.buyAmount.raw.toNat < Word.size) :
    offer.IsFill offer.payAmount offer.buyAmount :=
  ⟨h.pay_pos, Nat.le_refl _, hproduct, h.buy_pos, (Nat.mul_div_cancel_left _ h.pay_pos).symm⟩

theorem IsFill.remainder?_eq_none_iff (h : offer.IsFill quantity given) :
    Sandbox.remainder? offer quantity given = none ↔ quantity = offer.payAmount := by
  rcases Sandbox.remainder?_cases h with ⟨hnone, hall, _⟩ | ⟨rest, hrest, hpay, _, hpos, _⟩
  · exact iff_of_true hnone (Wad.ext (Word.ext hall))
  · refine iff_of_false (by rw [hrest]; nofun) ?_
    rintro rfl
    omega

end Offer

namespace Sandbox

open Session

/-- Somebody who asks for the quantity of an order now gets it for `given`: the transaction goes
through, and its one log says so. -/
def Sells (s : Sandbox) (id : OrderId) (quantity given : Wad) : Prop :=
  ∃ hash receipt log fill,
    (s.submit ((Command.take id quantity).intent s.market)).1 = .ok ⟨hash, some (.ok receipt)⟩ ∧
      receipt.logs = [log] ∧ Event.ofLog .take log = .ok (.take fill) ∧
      fill.id = id ∧ fill.takeAmount = quantity ∧ fill.giveAmount = given

section

variable {s : Sandbox} {id : OrderId} {offer : Offer} {quantity given : Wad}

theorem mines_take_iff :
    s.Mines ((Command.take id quantity).intent s.market) ↔
      s.isClosed = false ∧ ∃ offer, s.offer? id = some offer ∧
        ∃ given, offer.IsFill quantity given := by
  rw [mines_intent_iff rfl]
  constructor
  · rintro ⟨effect, h⟩
    obtain ⟨hopen, offer, given, hoffer, hfill, _⟩ := take_eq_ok_iff.mp h
    exact ⟨hopen, offer, hoffer, given, hfill⟩
  · rintro ⟨hopen, offer, hoffer, given, hfill⟩
    exact ⟨_, take_eq_ok_iff.mpr ⟨hopen, offer, given, hoffer, hfill, rfl⟩⟩

theorem submit_take (hopen : s.isClosed = false) (hoffer : s.offer? id = some offer)
    (hfill : offer.IsFill quantity given) :
    let log := s.started.recordFill id offer quantity given
    s.submit ((Command.take id quantity).intent s.market) =
      (.ok ⟨s.nextHash, some (.ok ⟨s.nextHash, s.block, [log]⟩)⟩,
        (s.started.setOffer id (remainder? offer quantity given)).mine [log]) := by
  intro log
  have hexec : s.started.execute (.take id quantity) =
      .ok (s.started.setOffer id (remainder? offer quantity given), [log]) :=
    take_eq_ok_iff.mpr ⟨hopen, offer, given, hoffer, hfill, rfl⟩
  exact submit_of_execute rfl hexec

theorem sells_of_fill (hopen : s.isClosed = false) (hoffer : s.offer? id = some offer)
    (hfill : offer.IsFill quantity given) : s.Sells id quantity given := by
  have hmined := congrArg Prod.fst (submit_take hopen hoffer hfill)
  have htells := s.started.recordFill_tells id offer quantity given
  exact ⟨_, _, _, _, hmined, rfl, htells.ofLog_eq .take, rfl, rfl, rfl⟩

theorem offer?_of_fill (hopen : s.isClosed = false) (hoffer : s.offer? id = some offer)
    (hfill : offer.IsFill quantity given) (other : OrderId) :
    (s.submit ((Command.take id quantity).intent s.market)).2.offer? other =
      if id = other then remainder? offer quantity given else s.offer? other := by
  rw [submit_take hopen hoffer hfill, offer?_mine, offer?_setOffer]
  rfl

theorem exists_receipt_of_mem {intent : Intent} {l : Log}
    (h : l ∈ s.receiptLogs (.submit intent)) :
    ∃ hash receipt, (s.submit intent).1 = .ok ⟨hash, some (.ok receipt)⟩ ∧ l ∈ receipt.logs := by
  simp only [receiptLogs] at h
  split at h
  next hash receipt hmined => exact ⟨hash, receipt, hmined, h⟩
  next => cases h

theorem not_puts_take (s : Sandbox) (market : Address) (id other : OrderId) (quantity : Wad) :
    ¬ s.Puts (.submit ((Command.take other quantity).intent market)) id := by
  intro h
  obtain ⟨l, hl, hmade⟩ := puts_submit_iff.mp h
  obtain ⟨hash, receipt, hmined, hmem⟩ := exists_receipt_of_mem hl
  obtain ⟨c, done, hread, hexec, _⟩ := (s.submit_handles _).mined_of_ok hmined
  have hargs : Command.ofCall s.kind (Command.take other quantity).method
      (Command.take other quantity).args = .ok (.take other quantity) := Command.ofCall_args rfl
  obtain rfl := Except.ok.inj (hargs.symm.trans hread)
  obtain ⟨_, offer, given, _, _, heffect⟩ := take_eq_ok_iff.mp hexec
  obtain ⟨_, hlogs⟩ := Prod.mk.inj heffect
  obtain rfl := List.mem_singleton.mp (hlogs ▸ hmem)
  cases hmade.kind_unique (s.started.recordFill_isOf other offer quantity given)

/-- No order gets stuck: what takes and anything else have left of an order can be taken, as long as
all of it could be taken once. -/
theorem isFill_left {actions : List SandboxAction} {left : Offer}
    (hoffer : s.offer? id = some offer) (hpos : offer.IsPositive)
    (hproduct : offer.payAmount.raw.toNat * offer.buyAmount.raw.toNat < Word.size)
    (hkept : ¬ Sometime (·.Puts · id) s actions)
    (hleft : (s.perform actions).offer? id = some left) :
    left.IsFill left.payAmount left.buyAmount := by
  obtain ⟨trail, hlife, hnew⟩ := perform_life hkept
  rw [hoffer, hleft] at hlife
  obtain ⟨_, hleaves⟩ := hlife.comes hnew hpos.pay_pos hpos.buy_pos
  have hpay : left.payAmount.raw.toNat ≤ offer.payAmount.raw.toNat := Nat.le.intro hleaves.pay_eq
  have hbuy : left.buyAmount.raw.toNat ≤ offer.buyAmount.raw.toNat := Nat.le.intro hleaves.buy_eq
  have hless := Nat.lt_of_le_of_lt (Nat.mul_le_mul hpay hbuy) hproduct
  exact Offer.IsPositive.isFill ⟨hleaves.pay_pos, hleaves.buy_pos⟩ hless

end

/-- A part of an order is taken just if the market is open, there is as much, and its price can be
worked out and is not nothing. What takes have left of an order can always be had for the rest. -/
theorem take_end_to_end (s : Sandbox) (id : OrderId) :
    (∀ quantity : Wad,
      let taking := (Command.take id quantity).intent s.market
      let after := (s.submit taking).2
      (Command.take id quantity).checkedIntent s.market = .ok taking ∧
      (s.Mines taking ↔
        ¬ (s.kind ≠ .simple ∧ s.closeTime < s.now) ∧ ∃ offer, s.offer? id = some offer ∧
          0 < quantity.raw.toNat ∧ quantity ≤ offer.payAmount ∧
          quantity.raw.toNat * offer.buyAmount.raw.toNat < Word.size ∧
          0 < quantity.raw.toNat * offer.buyAmount.raw.toNat / offer.payAmount.raw.toNat) ∧
      (s.Mines taking → ∀ offer, s.offer? id = some offer →
        (∃ given : Wad, given.raw.toNat =
            quantity.raw.toNat * offer.buyAmount.raw.toNat / offer.payAmount.raw.toNat ∧
          s.Sells id quantity given) ∧
        (after.offer? id = none ↔ quantity = offer.payAmount) ∧
        (∀ rest, after.offer? id = some rest → offer.Reduces quantity rest) ∧
        ∀ other, other ≠ id → after.offer? other = s.offer? other)) ∧
    ∀ offer, s.offer? id = some offer → offer.IsPositive →
      offer.payAmount.raw.toNat * offer.buyAmount.raw.toNat < Word.size ∨
        offer.payAmount.raw.toNat < 2 ^ 128 ∧ offer.buyAmount.raw.toNat < 2 ^ 128 →
      ∀ actions, ¬ Sometime (·.Puts · id) s actions →
        let last := s.perform actions
        last.isClosed = false → ∀ left, last.offer? id = some left →
          last.Sells id left.payAmount left.buyAmount ∧
          (last.submit ((Command.take id left.payAmount).intent last.market)).2.offer? id =
            none := by
  refine ⟨fun quantity => ?_, ?_⟩
  · intro taking after
    refine ⟨rfl, ?_, fun hmines offer hoffer => ?_⟩
    · rw [mines_take_iff, ← Bool.not_eq_true, isClosed_iff]
      simp only [Offer.exists_isFill_iff]
    · obtain ⟨hopen, found, hfound, given, hfill⟩ := mines_take_iff.mp hmines
      obtain rfl := Option.some.inj (hfound.symm.trans hoffer)
      have hafter : after.offer? id = remainder? found quantity given :=
        (offer?_of_fill hopen hoffer hfill id).trans (if_pos rfl)
      refine ⟨⟨given, hfill.given_eq, sells_of_fill hopen hoffer hfill⟩, ?_, fun rest hrest => ?_,
        fun other hne => ?_⟩
      · rw [hafter]
        exact hfill.remainder?_eq_none_iff
      · exact reduces_of_fill hfill (hafter.symm.trans hrest)
      · exact (offer?_of_fill hopen hoffer hfill other).trans (if_neg (Ne.symm hne))
  · intro offer hoffer hpos hsmall actions hkept last hopen left hleft
    have hproduct : offer.payAmount.raw.toNat * offer.buyAmount.raw.toNat < Word.size := by
      rcases hsmall with hproduct | ⟨hpay, hbuy⟩
      · exact hproduct
      · exact Nat.mul_lt_mul'' hpay hbuy
    have hfill := isFill_left hoffer hpos hproduct hkept hleft
    refine ⟨sells_of_fill hopen hleft hfill, ?_⟩
    rw [offer?_of_fill hopen hleft hfill, if_pos rfl]
    exact hfill.remainder?_eq_none_iff.mpr rfl

theorem take_end_to_end_of_trial :
    let s := trial.insert (trial.offerOf trialTerms)
    let taking := (Command.take 1 ⟨.ofUInt64 1⟩).intent s.market
    let takes : List SandboxAction := [.submit taking, .setSender (Bytes.ofNat 20 9), .submit taking]
    let last := s.perform takes
    s.Mines taking ∧ (∃ given : Wad, given.raw.toNat = 1 ∧ s.Sells 1 ⟨.ofUInt64 1⟩ given) ∧
      last.Sells 1 ⟨.ofUInt64 1⟩ ⟨.ofUInt64 2⟩ ∧ (last.submit taking).2.offer? 1 = none := by
  intro s taking takes last
  have hoffer : s.offer? 1 = some (trial.offerOf trialTerms) := by decide
  have hkept : ¬ Sometime (·.Puts · 1) s takes := by
    simp only [takes, Sometime, not_or]
    refine ⟨not_puts_take _ _ _ _ _, ?_, not_puts_take _ _ _ _ _, not_false⟩
    rintro (⟨⟨⟩⟩ | ⟨⟩)
  obtain ⟨hquantity, hall⟩ := take_end_to_end s 1
  obtain ⟨_, hmines, htaken⟩ := hquantity ⟨.ofUInt64 1⟩
  have hmined : s.Mines taking :=
    hmines.mpr ⟨by decide, _, hoffer, by decide, by decide, by decide, by decide⟩
  obtain ⟨given, hgiven, hsells⟩ := (htaken hmined _ hoffer).1
  obtain ⟨hlast, hgone⟩ := hall _ hoffer ⟨by decide, by decide⟩ (.inl (by decide)) takes hkept
    (by decide) ⟨⟨_, ⟨.ofUInt64 1⟩, _, ⟨.ofUInt64 2⟩⟩, _, _⟩ rfl
  exact ⟨hmined, ⟨given, hgiven, hsells⟩, hlast, hgone⟩

end Sandbox

end Barter
