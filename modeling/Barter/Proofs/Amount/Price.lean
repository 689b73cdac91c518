import Barter.Order

namespace Barter

theorem Wad.le_max (a : Wad) : a ≤ .max :=
  Nat.le_sub_one_of_lt a.raw.toNat_lt

theorem Wad.div?_eq_none_iff {a b : Wad} :
    a.div? b = none ↔ b.raw.toNat = 0 ∨ Word.size ≤ a.raw.toNat * one := by
  unfold div?
  split
  next hzero => simp [isZero_iff.mp hzero]
  next hzero => simp [Word.ofNat?_eq_none_iff, mt isZero_iff.mpr hzero]

theorem Wad.exists_div? {a b : Wad} (hb : 0 < b.raw.toNat)
    (hsize : a.raw.toNat * one < Word.size) :
    ∃ q, a.div? b = some q ∧ q.raw.toNat = a.raw.toNat * one / b.raw.toNat := by
  cases hq : a.div? b with
  | none =>
      rcases div?_eq_none_iff.mp hq with hzero | hlarge
      · omega
      · omega
  | some q => exact ⟨q, rfl, (div?_eq_some_iff.mp hq).2.2⟩

/-- No quotient that can be worked out is the largest amount, which is odd. -/
theorem Wad.div?_ne_max {a b : Wad} : a.div? b ≠ some .max := by
  intro h
  obtain ⟨_, hsize, hquotient⟩ := div?_eq_some_iff.mp h
  have hmax : max.raw.toNat = Word.size - 1 := rfl
  have hle := Nat.div_le_self (a.raw.toNat * one) b.raw.toNat
  rw [← hquotient, hmax] at hle
  simp only [Word.size, one] at hsize hle
  omega

/-- Of two fractions that are compared crosswise, the lesser one is not greater when both are scaled
and rounded down. -/
theorem scaled_div_le {a b c d : Nat} (hb : 0 < b) (hd : 0 < d) (h : a * d ≤ c * b) (scale : Nat) :
    a * scale / b ≤ c * scale / d := by
  rw [Nat.le_div_iff_mul_le hd]
  refine Nat.le_of_mul_le_mul_right ?_ hb
  calc a * scale / b * d * b = a * scale / b * b * d := Nat.mul_right_comm ..
    _ ≤ a * scale * d := Nat.mul_le_mul_right d (Nat.div_mul_le_self _ b)
    _ = a * d * scale := Nat.mul_right_comm ..
    _ ≤ c * b * scale := Nat.mul_le_mul_right scale h
    _ = c * scale * b := Nat.mul_right_comm ..

/-- The first terms may be what takers have left of the second: no more is on sale, and no less is
wanted for it in proportion. -/
structure Terms.IsLeftOf (left terms : Terms) : Prop where
  pay_le : left.payAmount.raw.toNat ≤ terms.payAmount.raw.toNat
  buy_pos : 0 < terms.buyAmount.raw.toNat → 0 < left.buyAmount.raw.toNat
  cross_le : left.payAmount.raw.toNat * terms.buyAmount.raw.toNat ≤
    terms.payAmount.raw.toNat * left.buyAmount.raw.toNat

namespace Terms.IsLeftOf

variable {left between terms : Terms}

theorem refl (terms : Terms) : terms.IsLeftOf terms :=
  ⟨Nat.le_refl _, id, Nat.le_refl _⟩

theorem trans (h : left.IsLeftOf between) (h' : between.IsLeftOf terms) : left.IsLeftOf terms := by
  refine ⟨Nat.le_trans h.pay_le h'.pay_le, fun hbuy => h.buy_pos (h'.buy_pos hbuy), ?_⟩
  rcases Nat.eq_zero_or_pos terms.buyAmount.raw.toNat with hzero | hpos
  · rw [hzero, Nat.mul_zero]
    exact Nat.zero_le _
  · -- the amount wanted in between links the two proportions
    refine Nat.le_of_mul_le_mul_right ?_ (h'.buy_pos hpos)
    calc left.payAmount.raw.toNat * terms.buyAmount.raw.toNat * between.buyAmount.raw.toNat
        = left.payAmount.raw.toNat * between.buyAmount.raw.toNat * terms.buyAmount.raw.toNat :=
          Nat.mul_right_comm ..
      _ ≤ between.payAmount.raw.toNat * left.buyAmount.raw.toNat * terms.buyAmount.raw.toNat :=
          Nat.mul_le_mul_right _ h.cross_le
      _ = between.payAmount.raw.toNat * terms.buyAmount.raw.toNat * left.buyAmount.raw.toNat :=
          Nat.mul_right_comm ..
      _ ≤ terms.payAmount.raw.toNat * between.buyAmount.raw.toNat * left.buyAmount.raw.toNat :=
          Nat.mul_le_mul_right _ h'.cross_le
      _ = terms.payAmount.raw.toNat * left.buyAmount.raw.toNat * between.buyAmount.raw.toNat :=
          Nat.mul_right_comm ..

end Terms.IsLeftOf

namespace Order

section

variable {o : Order} (hbuy : 0 < o.buyAmount.raw.toNat)
include hbuy

theorem sellToBuyPrice_of_fits (hfits : o.payAmount.raw.toNat * Wad.one < Word.size) :
    o.sellToBuyPrice.raw.toNat = o.payAmount.raw.toNat * Wad.one / o.buyAmount.raw.toNat := by
  obtain ⟨price, hprice, hquotient⟩ := Wad.exists_div? hbuy hfits
  rw [sellToBuyPrice, hprice]
  exact hquotient

theorem sellToBuyPrice_eq_max_iff :
    o.sellToBuyPrice = .max ↔ Word.size ≤ o.payAmount.raw.toNat * Wad.one := by
  rw [sellToBuyPrice]
  cases hprice : o.payAmount.div? o.buyAmount with
  | none =>
      have hlarge := (Wad.div?_eq_none_iff.mp hprice).resolve_left (Nat.ne_of_gt hbuy)
      exact iff_of_true rfl hlarge
  | some price =>
      obtain ⟨_, hfits, _⟩ := Wad.div?_eq_some_iff.mp hprice
      have hne : price ≠ .max := by
        rintro rfl
        exact Wad.div?_ne_max hprice
      exact iff_of_false hne (Nat.not_le.mpr hfits)

end

variable {left o : Order} (h : left.toTerms.IsLeftOf o.toTerms)
include h

/-- Also where one of the quotients is too large, and the largest price stands for it. -/
theorem sellToBuyPrice_le : left.sellToBuyPrice ≤ o.sellToBuyPrice := by
  unfold sellToBuyPrice
  cases hprice : o.payAmount.div? o.buyAmount with
  | none => exact Wad.le_max _
  | some price =>
      obtain ⟨hbuy, hsize, hquotient⟩ := Wad.div?_eq_some_iff.mp hprice
      have hpos := Nat.pos_of_ne_zero hbuy
      have hleft := h.buy_pos hpos
      cases hlower : left.payAmount.div? left.buyAmount with
      | none =>
          have hscaled := Nat.mul_le_mul_right Wad.one h.pay_le
          rcases Wad.div?_eq_none_iff.mp hlower with hzero | hlarge
          · omega
          · omega
      | some lower =>
          obtain ⟨_, _, hlowerQuotient⟩ := Wad.div?_eq_some_iff.mp hlower
          have hle := scaled_div_le hleft hpos h.cross_le Wad.one
          rw [← hlowerQuotient, ← hquotient] at hle
          exact hle

theorem buyToSellPrice_le {price higher : Wad} (hprice : o.buyToSellPrice? = some price)
    (hhigher : left.buyToSellPrice? = some higher) : price ≤ higher := by
  obtain ⟨hpay, _, hquotient⟩ := Wad.div?_eq_some_iff.mp hprice
  obtain ⟨hleft, _, hhigherQuotient⟩ := Wad.div?_eq_some_iff.mp hhigher
  have hcross : o.buyAmount.raw.toNat * left.payAmount.raw.toNat ≤
      left.buyAmount.raw.toNat * o.payAmount.raw.toNat := by
    rw [Nat.mul_comm, Nat.mul_comm left.buyAmount.raw.toNat]
    exact h.cross_le
  have hle := scaled_div_le (Nat.pos_of_ne_zero hpay) (Nat.pos_of_ne_zero hleft) hcross Wad.one
  rw [← hquotient, ← hhigherQuotient] at hle
  exact hle

end Order

end Barter
