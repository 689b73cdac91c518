import Barter.Proofs.Client.Making
import Barter.Proofs.Hint
import Mathlib.Algebra.Order.Floor.Semifield
import Mathlib.Data.Rat.Floor
import Mathlib.Tactic.GCongr
import Mathlib.Tactic.Linarith
import Mathlib.Tactic.Ring

namespace Barter

def resolution : ℚ :=
  1 / 10 ^ 18

namespace Terms

variable {t u : Terms} {p q : Wad}

def exactPrice (t : Terms) : ℚ :=
  t.payAmount.raw.toNat / t.buyAmount.raw.toNat

structure IsBounded (t : Terms) : Prop where
  pay_lt : t.payAmount.raw.toNat < 2 ^ 128
  buy_pos : 0 < t.buyAmount.raw.toNat

instance (t : Terms) : Decidable t.IsBounded :=
  decidable_of_iff (t.payAmount.raw.toNat < 2 ^ 128 ∧ 0 < t.buyAmount.raw.toNat)
    ⟨fun h => ⟨h.1, h.2⟩, fun h => ⟨h.pay_lt, h.buy_pos⟩⟩

theorem IsBounded.fits (h : t.IsBounded) : t.payAmount.raw.toNat * Wad.one < Word.size :=
  (Nat.mul_lt_mul_of_pos_right h.pay_lt (by decide)).trans (by decide)

theorem exactPrice_le_iff (ht : 0 < t.buyAmount.raw.toNat) (hu : 0 < u.buyAmount.raw.toNat) :
    t.exactPrice ≤ u.exactPrice ↔
      t.payAmount.raw.toNat * u.buyAmount.raw.toNat ≤
        u.payAmount.raw.toNat * t.buyAmount.raw.toNat := by
  rw [exactPrice, exactPrice, div_le_div_iff₀ (Nat.cast_pos.mpr ht) (Nat.cast_pos.mpr hu)]
  norm_cast

theorem exactPrice_nonneg (t : Terms) : 0 ≤ t.exactPrice :=
  div_nonneg (Nat.cast_nonneg _) (Nat.cast_nonneg _)

theorem HasPrice.eq_floor (h : t.HasPrice p) : p.raw.toNat = ⌊t.exactPrice * 10 ^ 18⌋₊ := by
  have hratio : t.exactPrice * 10 ^ 18 =
      ((t.payAmount.raw.toNat * Wad.one : Nat) : ℚ) / (t.buyAmount.raw.toNat : ℚ) := by
    rw [exactPrice, Wad.one]
    push_cast
    ring
  rw [h.quotient, hratio, Nat.floor_div_eq_div]

theorem HasPrice.le_of_exactPrice_le (ht : t.HasPrice p) (hu : u.HasPrice q)
    (hle : t.exactPrice ≤ u.exactPrice) : p ≤ q := by
  have hscaled : t.exactPrice * 10 ^ 18 ≤ u.exactPrice * 10 ^ 18 := by gcongr
  have hfloor := Nat.floor_mono hscaled
  rw [← ht.eq_floor, ← hu.eq_floor] at hfloor
  exact hfloor

/-- Rounding down takes less than the resolution from a price. -/
theorem HasPrice.exactPrice_lt (ht : t.HasPrice p) (hu : u.HasPrice q) (hle : p ≤ q) :
    t.exactPrice < u.exactPrice + resolution := by
  have hlt := Nat.lt_floor_add_one (t.exactPrice * 10 ^ 18)
  have hfloor := Nat.floor_le (mul_nonneg u.exactPrice_nonneg (by norm_num : (0 : ℚ) ≤ 10 ^ 18))
  have hcast : (p.raw.toNat : ℚ) ≤ q.raw.toNat := Nat.cast_le.mpr hle
  rw [← ht.eq_floor] at hlt
  rw [← hu.eq_floor] at hfloor
  rw [resolution]
  linarith

/-- Two written prices are ordered as the exact ones are, which are compared crosswise, and are
equal only within the resolution. -/
structure KeepsOrder (t u : Terms) (p q : Wad) : Prop where
  le : t.payAmount.raw.toNat * u.buyAmount.raw.toNat ≤
    u.payAmount.raw.toNat * t.buyAmount.raw.toNat → p ≤ q
  near : p = q → |t.exactPrice - u.exactPrice| < resolution

theorem HasPrice.keepsOrder (ht : t.HasPrice p) (hu : u.HasPrice q)
    (htBuy : 0 < t.buyAmount.raw.toNat) (huBuy : 0 < u.buyAmount.raw.toNat) :
    KeepsOrder t u p q := by
  refine ⟨fun hcross => ht.le_of_exactPrice_le hu ((exactPrice_le_iff htBuy huBuy).mpr hcross), ?_⟩
  rintro rfl
  have habove := ht.exactPrice_lt hu (Nat.le_refl _)
  have hbelow := hu.exactPrice_lt ht (Nat.le_refl _)
  exact abs_sub_lt_iff.mpr ⟨by linarith, by linarith⟩

theorem IsBounded.hasPrice {o : Order} (h : o.toTerms.IsBounded) :
    o.toTerms.HasPrice o.sellToBuyPrice :=
  ⟨h.fits, Order.sellToBuyPrice_of_fits h.buy_pos h.fits⟩

theorem IsBounded.exists_price (h : t.IsBounded) (hpay : 0 < t.payAmount.raw.toNat) :
    ∃ price, t.price = .ok price ∧ t.HasPrice price := by
  rcases price_cases (not_hasZero_iff.mpr ⟨hpay, h.buy_pos⟩) with ⟨hlarge, _⟩ | hprice
  · exact absurd h.fits (Nat.not_lt.mpr hlarge)
  · exact hprice

end Terms

namespace Hint

structure IsNearby (orders : List Order) (new : Terms) (chosen : Order) : Prop where
  mem : chosen ∈ orders
  pair_eq : chosen.pair = new.pair
  not_cheaper : new.exactPrice < chosen.exactPrice + resolution
  cheapest : ∀ o ∈ orders, o.pair = new.pair → new.exactPrice ≤ o.exactPrice →
    chosen.exactPrice < o.exactPrice + resolution

variable {orders : List Order} {new : Terms} {price : Wad}
  (hbounded : ∀ o ∈ orders, o.toTerms.IsBounded) (hprice : new.HasPrice price)
include hbounded hprice

theorem isRival_of_exactPrice_le {o : Order} (ho : o ∈ orders) (hpair : o.pair = new.pair)
    (hle : new.exactPrice ≤ o.exactPrice) : o.IsRival new.pair price :=
  ⟨hpair, hprice.le_of_exactPrice_le (hbounded o ho).hasPrice hle⟩

theorem IsNearest.isNearby {chosen : Order} (h : IsNearest orders new.pair price chosen) :
    IsNearby orders new chosen := by
  have hchosen := (hbounded chosen h.mem).hasPrice
  refine ⟨h.mem, h.rival.pair_eq, hprice.exactPrice_lt hchosen h.rival.price_le, ?_⟩
  intro o ho hpair hle
  have hrival := isRival_of_exactPrice_le hbounded hprice ho hpair hle
  refine hchosen.exactPrice_lt (hbounded o ho).hasPrice ?_
  rcases h.first o ho hrival with hlt | ⟨heq, _⟩
  · exact Nat.le_of_lt hlt
  · rw [heq]
    exact Nat.le_refl _

theorem position_nearby :
    (position orders new.pair price = 0 ∧
        ∀ o ∈ orders, o.pair = new.pair → o.exactPrice < new.exactPrice) ∨
      ∃ chosen, IsNearby orders new chosen ∧ position orders new.pair price = chosen.id := by
  rcases position_cases orders new.pair price with ⟨hzero, hnone⟩ | ⟨chosen, hnearest, hid⟩
  · refine .inl ⟨hzero, fun o ho hpair => lt_of_not_ge fun hle => ?_⟩
    exact hnone o ho (isRival_of_exactPrice_le hbounded hprice ho hpair hle)
  · exact .inr ⟨chosen, hnearest.isNearby hbounded hprice, hid⟩

end Hint

/-- Rounding prices down never turns the order of two of them round, and it makes no two equal that
differ by the resolution or more. -/
theorem rounding_keeps_order (x y : Order) (hx : x.toTerms.IsBounded) (hy : y.toTerms.IsBounded) :
    Terms.KeepsOrder x.toTerms y.toTerms x.sellToBuyPrice y.sellToBuyPrice ∧
      ∀ new : Terms, new.IsBounded → 0 < new.payAmount.raw.toNat →
        ∃ price, new.price = .ok price ∧
          Terms.KeepsOrder new y.toTerms price y.sellToBuyPrice ∧
          Terms.KeepsOrder y.toTerms new y.sellToBuyPrice price ∧
          ∀ orders : List Order, (∀ o ∈ orders, o.toTerms.IsBounded) →
            (Hint.position orders new.pair price = 0 ∧
                ∀ o ∈ orders, o.pair = new.pair → o.exactPrice < new.exactPrice) ∨
              ∃ chosen, Hint.IsNearby orders new chosen ∧
                Hint.position orders new.pair price = chosen.id := by
  refine ⟨hx.hasPrice.keepsOrder hy.hasPrice hx.buy_pos hy.buy_pos, fun new hnew hsold => ?_⟩
  obtain ⟨price, hprice, hhas⟩ := hnew.exists_price hsold
  exact ⟨price, hprice, hhas.keepsOrder hy.hasPrice hnew.buy_pos hy.buy_pos,
    hy.hasPrice.keepsOrder hhas hy.buy_pos hnew.buy_pos,
    fun _ hbounded => Hint.position_nearby hbounded hhas⟩

/-- A single unit is on sale, once for two and once for three: both prices are rounded down to
nothing. Of the orders at two, the hint for another one at two is the order with the lowest id. -/
theorem rounding_keeps_order_of_trial :
    let x : Order :=
      { payToken := .zero, payAmount := ⟨⟨1, by decide⟩⟩, buyToken := .zero,
        buyAmount := .ofNumber 2, market := .zero, id := 1, maker := .zero, timestamp := 0 }
    let y : Order := { x with buyAmount := .ofNumber 3 }
    let new : Terms := ⟨Hint.trialOrders.a, .ofNumber 2, Hint.trialOrders.b, .ofNumber 1⟩
    x.sellToBuyPrice = y.sellToBuyPrice ∧ |x.exactPrice - y.exactPrice| < resolution ∧
      ∃ chosen, Hint.IsNearby Hint.trialOrders new chosen ∧ chosen.id = 1 := by
  intro x y new
  have hsame : x.sellToBuyPrice = y.sellToBuyPrice := by decide
  obtain ⟨hkeeps, hnew⟩ := rounding_keeps_order x y (by decide) (by decide)
  obtain ⟨price, hprice, _, _, hsearch⟩ := hnew new (by decide) (by decide)
  have hdouble : new.price = .ok (.ofNumber 2) := by decide
  obtain rfl := Except.ok.inj (hdouble.symm.trans hprice)
  have hposition : Hint.position Hint.trialOrders new.pair (.ofNumber 2) = 1 := by decide
  refine ⟨hsame, hkeeps.near hsame, ?_⟩
  rcases hsearch Hint.trialOrders (by decide) with ⟨hzero, _⟩ | ⟨chosen, hnearby, hid⟩
  · exact absurd (hposition.symm.trans hzero) (by decide)
  · exact ⟨chosen, hnearby, hid.symm.trans hposition⟩

end Barter
