import Barter.Proofs.Sandbox.Accounting
import Mathlib.Tactic.Linarith
import Mathlib.Tactic.Ring

namespace Barter

open History

/-- What `fills` takes have left of an order for `pay` against `buy`: its price has not gone down,
and every take has let it rise by less than one unit of the amount wanted. -/
structure InProportion (pay buy restPay restBuy fills : Nat) : Prop where
  le : restPay * buy ≤ restBuy * pay
  lt : restBuy * pay + fills ≤ restPay * buy + fills * pay

theorem InProportion.refl (pay buy : Nat) : InProportion pay buy pay buy 0 := by
  have hcomm := Nat.mul_comm pay buy
  exact ⟨hcomm.le, by rw [hcomm, Nat.zero_mul]⟩

/-- Rounding down the price of a take leaves the rest in proportion. -/
theorem InProportion.fill {pay buy restPay restBuy fills quantity given newPay newBuy : Nat}
    (h : InProportion pay buy restPay restBuy fills) (rest_pos : 0 < restPay)
    (hle : restPay ≤ pay) (hgiven : given = quantity * restBuy / restPay)
    (hpay : newPay + quantity = restPay) (hbuy : newBuy + given = restBuy) :
    InProportion pay buy newPay newBuy (fills + 1) := by
  have hfloor : given * restPay ≤ quantity * restBuy := hgiven ▸ Nat.div_mul_le_self _ _
  have hceil : quantity * restBuy < given * restPay + restPay :=
    hgiven ▸ Nat.lt_div_mul_add rest_pos
  have hpayMul : newPay * restBuy + quantity * restBuy = restPay * restBuy := by
    rw [← Nat.add_mul, hpay]
  have hbuyMul : newBuy * restPay + given * restPay = restPay * restBuy := by
    rw [← Nat.add_mul, hbuy, Nat.mul_comm]
  have hlow : newPay * restBuy ≤ newBuy * restPay := by omega
  have hhigh : newBuy * restPay + 1 ≤ newPay * restBuy + restPay := by omega
  -- the old rest links the new one to the first amounts, so both bounds are compared times `restPay`
  constructor
  · refine Nat.le_of_mul_le_mul_right ?_ rest_pos
    calc newPay * buy * restPay = newPay * (restPay * buy) := by ring
      _ ≤ newPay * (restBuy * pay) := Nat.mul_le_mul_left _ h.le
      _ = newPay * restBuy * pay := by ring
      _ ≤ newBuy * restPay * pay := Nat.mul_le_mul_right _ hlow
      _ = newBuy * pay * restPay := by ring
  · refine Nat.le_of_mul_le_mul_right ?_ rest_pos
    have hrise := Nat.mul_le_mul_right pay hhigh
    have hbefore := Nat.mul_le_mul_left newPay h.lt
    have htaken := Nat.mul_le_mul_left (quantity * fills) (rest_pos.trans_le hle)
    subst hpay
    linarith

theorem InProportion.bounds {pay buy restPay restBuy fills taken given : Nat}
    (h : InProportion pay buy restPay restBuy fills) (pay_pos : 0 < pay) (fills_pos : 0 < fills)
    (hpay : restPay + taken = pay) (hbuy : restBuy + given = buy) :
    (taken : Int) * buy / pay - fills < given ∧ (given : Int) ≤ taken * buy / pay := by
  have hpayMul : restPay * buy + taken * buy = pay * buy := by rw [← Nat.add_mul, hpay]
  have hbuyMul : restBuy * pay + given * pay = pay * buy := by
    rw [← Nat.add_mul, hbuy, Nat.mul_comm]
  have hle := h.le
  have hlt := h.lt
  have hlow : taken * buy < (given + fills) * pay := by
    rw [Nat.add_mul]
    omega
  have hhigh : given * pay ≤ taken * buy := by omega
  have hpos : (0 : Int) < pay := by exact_mod_cast pay_pos
  constructor
  · rw [Int.sub_lt_iff, Int.ediv_lt_iff_lt_mul hpos]
    exact_mod_cast hlow
  · rw [Int.le_ediv_iff_mul_le hpos]
    exact_mod_cast hhigh

theorem Life.inProportion {id : OrderId} {offer : Offer} {trail : List Log} {after : Option Offer}
    (h : Life id (some offer) trail after) (hnew : ∀ l ∈ trail, ¬ l.IsOf .make id)
    (pay_pos : 0 < offer.payAmount.raw.toNat) {pay buy fills : Nat}
    (hle : offer.payAmount.raw.toNat ≤ pay)
    (hin : InProportion pay buy offer.payAmount.raw.toNat offer.buyAmount.raw.toNat fills) :
    ∃ restPay restBuy, InProportion pay buy restPay restBuy (fills + (records trail .take).length) ∧
      restPay + takeSum trail "take_amt" = offer.payAmount.raw.toNat ∧
      restBuy + takeSum trail "give_amt" = offer.buyAmount.raw.toNat := by
  generalize hbefore : some offer = before at h
  induction h generalizing offer fills with
  | done =>
      subst hbefore
      exact ⟨_, _, hin, rfl, rfl⟩
  | @next _ between after l rest hl hrest ih =>
      subst hbefore
      have hnext : ∀ l ∈ rest, ¬ l.IsOf .make id := fun l hl => hnew l (by simp [hl])
      cases hl with
      | made _ _ _ hof => exact absurd hof (hnew _ (by simp))
      | bumped _ _ hof =>
          have hne : EventKind.bump ≠ .take := nofun
          simp only [records_cons_of_ne hof.1 hne, takeSum_cons_of_ne hof.1 hne]
          exact ih hnext pay_pos hle hin rfl
      | reduced _ left _ hof hgive hpay hbuy hp hb =>
          have hstep := hin.fill pay_pos hle hgive hpay hbuy
          obtain ⟨restPay, restBuy, hin, hpay', hbuy'⟩ := ih hnext hp (by omega) hstep rfl
          simp only [records_cons_of_eq hof.1, takeSum_cons_take hof.1, List.length_cons]
          rw [Nat.add_comm _ 1, ← Nat.add_assoc]
          exact ⟨restPay, restBuy, hin, by omega, by omega⟩
      | emptied _ _ hof hpay hbuy =>
          obtain ⟨rfl, rfl⟩ := hrest.nil_of_none hnext
          have hall : l.units "give_amt" = l.units "take_amt" * offer.buyAmount.raw.toNat /
              offer.payAmount.raw.toNat := by
            rw [hpay, hbuy, Nat.mul_div_cancel_left _ pay_pos]
          have hstep := hin.fill pay_pos hle hall (by omega : 0 + _ = _) (by omega : 0 + _ = _)
          simp only [records_cons_of_eq hof.1, takeSum_cons_take hof.1]
          exact ⟨0, 0, hstep, (Nat.zero_add _).trans hpay, (Nat.zero_add _).trans hbuy⟩
      | killed _ _ hof hpay hbuy =>
          obtain ⟨rfl, rfl⟩ := hrest.nil_of_none hnext
          have hne : EventKind.kill ≠ .take := nofun
          simp only [records_cons_of_ne hof.1 hne, takeSum_cons_of_ne hof.1 hne]
          exact ⟨_, _, hin, rfl, rfl⟩

theorem Comes.given_eq {offer : Offer} {trail : List Log} {after : Option Offer}
    (h : Comes offer trail after)
    (hall : takeSum trail "take_amt" = offer.payAmount.raw.toNat) :
    takeSum trail "give_amt" = offer.buyAmount.raw.toNat := by
  have hnothing {restPay restBuy : Nat} (hleft : Leaves trail offer.payAmount.raw.toNat
      offer.buyAmount.raw.toNat restPay restBuy) : False := by
    have hpos := hleft.pay_pos
    have heq := hleft.pay_eq
    omega
  cases after with
  | some rest => exact (hnothing h.2).elim
  | none =>
      rcases h with hfilled | ⟨_, _, _, hleft⟩
      · exact hfilled.buy_eq
      · exact (hnothing hleft).elim

/-- Piece by piece the takers pay no more than for the total at once, the maker loses less than a
unit a piece, and all of it is paid for in full. -/
theorem Sandbox.given_inProportion (s : Sandbox) (id : OrderId) (offer : Offer)
    (hoffer : s.offer? id = some offer) (pay_pos : 0 < offer.payAmount.raw.toNat)
    (buy_pos : 0 < offer.buyAmount.raw.toNat) (moves : List Move)
    (hnew : ∀ l ∈ s.logsOf moves, ¬ l.IsOf .make id)
    (htakes : records (about (s.logsOf moves) id) .take ≠ []) :
    let trail := about (s.logsOf moves) id
    let pay := offer.payAmount.raw.toNat
    let buy := offer.buyAmount.raw.toNat
    let taken := takeSum trail "take_amt"
    let given := takeSum trail "give_amt"
    (taken : Int) * buy / pay - (records trail .take).length < given ∧
      (given : Int) ≤ taken * buy / pay ∧ (taken = pay → given = buy) := by
  intro trail pay buy taken given
  have hlife := s.run_life moves id
  rw [hoffer] at hlife
  have hnone : ∀ l ∈ trail, ¬ l.IsOf .make id := fun l hl => hnew l (List.mem_filter.mp hl).1
  obtain ⟨restPay, restBuy, hin, hpay, hbuy⟩ :=
    hlife.inProportion hnone pay_pos (Nat.le_refl _) (.refl _ _)
  rw [Nat.zero_add] at hin
  obtain ⟨hlow, hhigh⟩ := hin.bounds pay_pos (List.length_pos_iff.mpr htakes) hpay hbuy
  exact ⟨hlow, hhigh, (hlife.comes hnone pay_pos buy_pos).given_eq⟩

theorem Sandbox.given_inProportion_of_trial :
    let made := trial.run [trialMove (.make trialTerms)]
    let trail := about (made.logsOf filledMoves.tail) 1
    made.offer? 1 = some (trial.offerOf trialTerms) ∧
      (takeSum trail "take_amt" : Int) * 5 / 3 - (records trail .take).length <
        takeSum trail "give_amt" ∧
      (takeSum trail "give_amt" : Int) ≤ takeSum trail "take_amt" * 5 / 3 ∧
      (takeSum trail "take_amt" = 3 → takeSum trail "give_amt" = 5) := by
  have hoffer : (trial.run [trialMove (.make trialTerms)]).offer? 1 =
      some (trial.offerOf trialTerms) := by decide
  exact ⟨hoffer, given_inProportion _ 1 _ hoffer (by decide) (by decide) filledMoves.tail
    (by decide) (by decide)⟩

end Barter
