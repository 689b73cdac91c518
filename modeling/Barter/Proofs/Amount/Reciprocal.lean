import Barter.Proofs.Amount.Price
import Mathlib.Tactic.Ring

namespace Barter

section Quotients

variable {pay buy : Nat} (hpay : 0 < pay) (hbuy : 0 < buy) (scale : Nat)
include hpay hbuy

theorem scaled_quotients_mul_le :
    pay * scale / buy * (buy * scale / pay) ≤ scale * scale := by
  refine Nat.le_of_mul_le_mul_right ?_ (Nat.mul_pos hbuy hpay)
  calc pay * scale / buy * (buy * scale / pay) * (buy * pay)
      = pay * scale / buy * buy * (buy * scale / pay * pay) := Nat.mul_mul_mul_comm ..
    _ ≤ pay * scale * (buy * scale) :=
        Nat.mul_le_mul (Nat.div_mul_le_self _ _) (Nat.div_mul_le_self _ _)
    _ = scale * scale * (buy * pay) := by ring

theorem lt_scaled_quotients_mul :
    scale * scale < (pay * scale / buy + 1) * (buy * scale / pay + 1) := by
  have hsold := Nat.lt_mul_div_succ (pay * scale) hbuy
  have hwanted := Nat.lt_mul_div_succ (buy * scale) hpay
  refine Nat.lt_of_mul_lt_mul_right (a := buy * pay) ?_
  calc scale * scale * (buy * pay)
      = pay * scale * (buy * scale) := by ring
    _ < buy * (pay * scale / buy + 1) * (pay * (buy * scale / pay + 1)) :=
        Nat.mul_lt_mul'' hsold hwanted
    _ = (pay * scale / buy + 1) * (buy * scale / pay + 1) * (buy * pay) := by ring

end Quotients

section Shortfall

variable {scale : Nat} (hscale : 0 < scale)
include hscale

/-- Of a sum, what is lost by rounding both parts down is less than two. -/
theorem lt_div_add_div {n x y : Nat} (h : scale * n ≤ x + y) : n < x / scale + y / scale + 2 := by
  have hx := Nat.lt_mul_div_succ x hscale
  have hy := Nat.lt_mul_div_succ y hscale
  refine Nat.lt_of_mul_lt_mul_left (a := scale) ?_
  calc scale * n ≤ x + y := h
    _ < scale * (x / scale + 1) + scale * (y / scale + 1) := Nat.add_lt_add hx hy
    _ = scale * (x / scale + y / scale + 2) := by ring

/-- The product that is rounded down falls short of one by what the factors have lost, and by what
is lost in rounding it. -/
theorem shortfall_lt {p q : Nat} (h : scale * scale < (p + 1) * (q + 1)) :
    scale - p * q / scale < (p + q) / scale + 2 := by
  have hproduct : (p + 1) * (q + 1) = p * q + (p + q) + 1 := by ring
  have hlt := lt_div_add_div hscale (Nat.le_of_lt_succ (hproduct ▸ h))
  generalize p * q / scale = product at hlt ⊢
  generalize (p + q) / scale = lost at hlt ⊢
  omega

/-- Multiplying a quotient that was rounded down falls short of the dividend by what the divisor
makes of the rest, and by what is lost in rounding the product. -/
theorem sub_quotient_mul_lt {a b : Nat} (hb : 0 < b) :
    a - a * scale / b * b / scale < b / scale + 2 := by
  have hrest : scale * a ≤ a * scale / b * b + b := by
    rw [Nat.mul_comm scale]
    exact (Nat.lt_div_mul_add hb).le
  have hlt := lt_div_add_div hscale hrest
  generalize a * scale / b * b / scale = product at hlt ⊢
  generalize b / scale = lost at hlt ⊢
  omega

end Shortfall

theorem Wad.exists_mul? {a b : Wad} (hsize : a.raw.toNat * b.raw.toNat < Word.size) :
    ∃ p, a.mul? b = some p ∧ a * b = p ∧ p.raw.toNat = a.raw.toNat * b.raw.toNat / one := by
  let p : Wad := ⟨⟨a.raw.toNat * b.raw.toNat / one,
    Nat.lt_of_le_of_lt (Nat.div_le_self _ _) hsize⟩⟩
  have hp : a.mul? b = some p := mul?_eq_some_iff.mpr ⟨hsize, rfl⟩
  refine ⟨p, hp, ?_, rfl⟩
  change (a.mul? b).getD .max = p
  rw [hp, Option.getD_some]

theorem Wad.div_eq_ok_of_div? {a b q : Wad} (h : a.div? b = some q) : a.div b = .ok q := by
  have hzero : ¬ b.isZero = true := fun hzero => (div?_eq_some_iff.mp h).1 (isZero_iff.mp hzero)
  rw [div, if_neg hzero, h, Option.getD_some]

/-- A quotient times its divisor is at most the dividend, and falls short of it by one and a part in
`10¹⁸` of the divisor at most. -/
theorem Wad.div_mul_within (a b : Wad) (hb : 0 < b.raw.toNat)
    (hsize : a.raw.toNat * one < Word.size) :
    ∃ q product, a.div? b = some q ∧ a.div b = .ok q ∧ q.mul? b = some product ∧
      q * b = product ∧ product ≤ a ∧
      a.raw.toNat - product.raw.toNat ≤ b.raw.toNat / one + 1 := by
  obtain ⟨q, hq, hqRaw⟩ := exists_div? hb hsize
  have hle : q.raw.toNat * b.raw.toNat ≤ a.raw.toNat * one := by
    rw [hqRaw]
    exact Nat.div_mul_le_self _ _
  -- rounding the quotient down is what keeps the unscaled product within a word
  obtain ⟨product, hchecked, hproduct, hproductRaw⟩ := exists_mul? (Nat.lt_of_le_of_lt hle hsize)
  refine ⟨q, product, hq, div_eq_ok_of_div? hq, hchecked, hproduct, ?atMost, ?shortfall⟩
  case atMost =>
    change product.raw.toNat ≤ a.raw.toNat
    rw [hproductRaw]
    exact Nat.div_le_of_le_mul (Nat.mul_comm one _ ▸ hle)
  case shortfall =>
    have hlt := sub_quotient_mul_lt (a := a.raw.toNat) (show 0 < one by decide) hb
    rw [hproductRaw, hqRaw]
    exact Nat.le_of_lt_succ hlt

theorem Wad.div_mul_within_of_units :
    let a : Wad := ⟨⟨2, by decide⟩⟩
    let b : Wad := ⟨⟨3, by decide⟩⟩
    ∃ q product, a.div b = .ok q ∧ q.raw.toNat = 666_666_666_666_666_666 ∧ q * b = product ∧
      product.raw.toNat = 1 ∧ product ≤ a ∧ a.raw.toNat - product.raw.toNat ≤ 3 / one + 1 := by
  intro a b
  obtain ⟨q, product, hchecked, hq, hmul, hproduct, hle, hshortfall⟩ :=
    div_mul_within a b (by decide) (by decide)
  have hqRaw : q.raw.toNat = 666_666_666_666_666_666 :=
    (div?_eq_some_iff.mp hchecked).2.2.trans (by decide)
  have hproductRaw := (mul?_eq_some_iff.mp hmul).2
  rw [hqRaw] at hproductRaw
  exact ⟨q, product, hq, hqRaw, hproduct, hproductRaw.trans (by decide), hle, hshortfall⟩

/-- What is sold for one unit wanted, times what is wanted for one unit sold, is one but for what
the three roundings lose, as long as neither amount is too large to be scaled. -/
theorem Order.prices_reciprocal (o : Order) (hpay : 0 < o.payAmount.raw.toNat)
    (hbuy : 0 < o.buyAmount.raw.toNat) (hpaySize : o.payAmount.raw.toNat * Wad.one < Word.size)
    (hbuySize : o.buyAmount.raw.toNat * Wad.one < Word.size) :
    let p := o.sellToBuyPrice
    ∃ q product, o.payAmount.div? o.buyAmount = some p ∧ o.buyToSellPrice? = some q ∧
      p.mul? q = some product ∧ p * q = product ∧ product ≤ .ofNumber 1 ∧
      (Wad.ofNumber 1 - product).raw.toNat < (p.raw.toNat + q.raw.toNat) / Wad.one + 2 := by
  obtain ⟨p, hp, hpRaw⟩ := Wad.exists_div? hbuy hpaySize
  obtain ⟨q, hq, hqRaw⟩ := Wad.exists_div? hpay hbuySize
  have hle : p.raw.toNat * q.raw.toNat ≤ Wad.one * Wad.one := by
    rw [hpRaw, hqRaw]
    exact scaled_quotients_mul_le hpay hbuy Wad.one
  have hlt : Wad.one * Wad.one < (p.raw.toNat + 1) * (q.raw.toNat + 1) := by
    rw [hpRaw, hqRaw]
    exact lt_scaled_quotients_mul hpay hbuy Wad.one
  -- the unscaled product is far below the size of a word, whatever the two prices are
  have hsize : p.raw.toNat * q.raw.toNat < Word.size := Nat.lt_of_le_of_lt hle (by decide)
  let product : Wad := ⟨⟨p.raw.toNat * q.raw.toNat / Wad.one,
    Nat.lt_of_le_of_lt (Nat.div_le_self _ _) hsize⟩⟩
  have hproduct : p.mul? q = some product := Wad.mul?_eq_some_iff.mpr ⟨hsize, rfl⟩
  have hprice : o.sellToBuyPrice = p := by rw [sellToBuyPrice, hp, Option.getD_some]
  rw [hprice]
  refine ⟨q, product, hp, hq, hproduct, ?saturated, ?atMost, ?shortfall⟩
  case saturated =>
    change (p.mul? q).getD .max = product
    rw [hproduct, Option.getD_some]
  case atMost => exact Nat.div_le_of_le_mul hle
  case shortfall => exact shortfall_lt (by decide) hlt

theorem Order.prices_reciprocal_of_dust :
    let o : Order :=
      { payToken := .zero, payAmount := ⟨⟨1, by decide⟩⟩, buyToken := .zero,
        buyAmount := ⟨⟨10 ^ 40, by decide⟩⟩, market := .zero, id := 1, maker := .zero,
        timestamp := 0 }
    ∃ q product, o.buyToSellPrice? = some q ∧ o.sellToBuyPrice * q = product ∧
      product ≤ .ofNumber 1 ∧ o.sellToBuyPrice.raw.toNat = 0 ∧ q.raw.toNat = 10 ^ 58 ∧
      (Wad.ofNumber 1 - product).raw.toNat < 10 ^ 40 + 2 := by
  intro o
  obtain ⟨q, product, _, hq, _, hproduct, hle, hshortfall⟩ :=
    o.prices_reciprocal (by decide) (by decide) (by decide) (by decide)
  have hp : o.sellToBuyPrice.raw.toNat = 0 := by decide
  have hqRaw : q.raw.toNat = 10 ^ 58 :=
    (Wad.div?_eq_some_iff.mp hq).2.2.trans (by decide)
  rw [hp, hqRaw] at hshortfall
  exact ⟨q, product, hq, hproduct, hle, hp, hqRaw, hshortfall⟩

end Barter
