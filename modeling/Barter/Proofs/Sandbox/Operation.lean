import Barter.Sandbox.Execution

namespace Barter

/-- A part of an offer that can be taken: `given` is the share of the amount wanted that falls to
`quantity`, rounded down, and it is not nothing. -/
structure Offer.IsFill (offer : Offer) (quantity given : Wad) : Prop where
  quantity_pos : 0 < quantity.raw.toNat
  quantity_le : quantity.raw.toNat ≤ offer.payAmount.raw.toNat
  product_lt : quantity.raw.toNat * offer.buyAmount.raw.toNat < Word.size
  given_pos : 0 < given.raw.toNat
  given_eq : given.raw.toNat =
    quantity.raw.toNat * offer.buyAmount.raw.toNat / offer.payAmount.raw.toNat

namespace Sandbox

structure Accepts (s : Sandbox) (terms : Terms) : Prop where
  isOpen : s.isClosed = false
  pay_pos : 0 < terms.payAmount.raw.toNat
  buy_pos : 0 < terms.buyAmount.raw.toNat
  tokens_ne : terms.payToken ≠ terms.buyToken
  admitted : s.admits terms.pair = true

def offerOf (s : Sandbox) (terms : Terms) : Offer :=
  { terms with owner := s.sender, timestamp := s.now }

def setOffer (s : Sandbox) (id : OrderId) (offer? : Option Offer) : Sandbox :=
  { s with
    offers :=
      match offer? with
      | some offer => s.offers.insert id offer
      | none => s.offers.erase id }

theorem offer?_setOffer (s : Sandbox) (id : OrderId) (o : Option Offer) (other : OrderId) :
    (s.setOffer id o).offer? other = if id = other then o else s.offer? other := by
  cases o with
  | none => simp [setOffer, offer?, Std.ExtTreeMap.getElem?_erase]
  | some offer => simp [setOffer, offer?, Std.ExtTreeMap.getElem?_insert]

theorem offer?_of_offers_eq {s t : Sandbox} (h : t.offers = s.offers) (id : OrderId) :
    t.offer? id = s.offer? id := by
  rw [offer?, h, offer?]

theorem liveOffer_eq_ok_iff {s : Sandbox} {id : OrderId} {offer : Offer} :
    s.liveOffer id = .ok offer ↔ s.offer? id = some offer := by
  unfold liveOffer offer?
  split
  next o h => simp [h]
  next h => simp [h]

theorem create_eq_ok_iff {s : Sandbox} {terms : Terms} {e : Effect} :
    s.create terms = .ok e ↔
      s.Accepts terms ∧
        e = (s.insert (s.offerOf terms), [s.announce .make s.nextId (s.offerOf terms)]) := by
  unfold create
  constructor
  · intro h
    split at h
    · cases h
    next hopen =>
      split at h
      · cases h
      next hzero =>
        split at h
        · cases h
        next hne =>
          split at h
          · cases h
          next hpair =>
            simp only [Bool.or_eq_true, Wad.isZero_iff, not_or] at hzero
            cases h
            exact ⟨⟨by simpa using hopen, Nat.pos_of_ne_zero hzero.1, Nat.pos_of_ne_zero hzero.2,
              hne, by simpa using hpair⟩, rfl⟩
  · rintro ⟨⟨hopen, hpay, hbuy, hne, hpair⟩, rfl⟩
    have hp := Wad.isZero_eq_false_iff.mpr hpay
    have hb := Wad.isZero_eq_false_iff.mpr hbuy
    simp [hopen, hp, hb, hne, hpair, offerOf]

theorem priceOf_eq_ok_iff {offer : Offer} {quantity given : Wad} :
    priceOf offer quantity = .ok given ↔
      quantity.raw.toNat * offer.buyAmount.raw.toNat < Word.size ∧
        offer.payAmount.raw.toNat ≠ 0 ∧
        given.raw.toNat =
          quantity.raw.toNat * offer.buyAmount.raw.toNat / offer.payAmount.raw.toNat := by
  unfold priceOf
  split
  next h =>
    have hsize := Word.ofNat?_eq_none_iff.mp h
    simp only [reduceCtorEq, false_iff]
    omega
  next product h =>
    have hp := Word.ofNat?_eq_some_iff.mp h
    have hlt := product.toNat_lt
    split
    next hz => simp [Wad.isZero_iff.mp hz]
    next hz =>
      have hpay : offer.payAmount.raw.toNat ≠ 0 := fun h => hz (Wad.isZero_iff.mpr h)
      constructor
      · intro h
        cases h
        exact ⟨by omega, hpay, by rw [hp]; rfl⟩
      · rintro ⟨_, _, hgiven⟩
        rw [hp] at hgiven
        exact congrArg Except.ok (Wad.ext (Word.ext hgiven.symm))

theorem take_eq_ok_iff {s : Sandbox} {id : OrderId} {quantity : Wad} {e : Effect} :
    s.take id quantity = .ok e ↔
      s.isClosed = false ∧ ∃ offer given, s.offer? id = some offer ∧
        offer.IsFill quantity given ∧
        e = (s.setOffer id (remainder? offer quantity given),
          [s.recordFill id offer quantity given]) := by
  unfold take
  constructor
  · intro h
    split at h
    · cases h
    next hopen =>
      obtain ⟨offer, hoffer, h⟩ := bind_eq_ok_iff.mp h
      obtain ⟨given, hgiven, h⟩ := bind_eq_ok_iff.mp h
      split at h
      · cases h
      next hfill =>
        obtain ⟨hproduct, hpay, hgiven⟩ := priceOf_eq_ok_iff.mp hgiven
        simp only [Bool.or_eq_true, Wad.isZero_iff, decide_eq_true_eq, not_or] at hfill
        obtain ⟨⟨hq, hg⟩, hle⟩ := hfill
        cases h
        exact ⟨by simpa using hopen, offer, given, liveOffer_eq_ok_iff.mp hoffer,
          ⟨Nat.pos_of_ne_zero hq, Nat.le_of_not_lt hle, hproduct, Nat.pos_of_ne_zero hg, hgiven⟩, rfl⟩
  · rintro ⟨hopen, offer, given, hoffer, hfill, rfl⟩
    have hpay : offer.payAmount.raw.toNat ≠ 0 := by
      have := hfill.quantity_pos
      have := hfill.quantity_le
      omega
    have hprice := priceOf_eq_ok_iff.mpr ⟨hfill.product_lt, hpay, hfill.given_eq⟩
    have hq := Wad.isZero_eq_false_iff.mpr hfill.quantity_pos
    have hg := Wad.isZero_eq_false_iff.mpr hfill.given_pos
    have hle : ¬ offer.payAmount < quantity := Nat.not_lt.mpr hfill.quantity_le
    rw [hopen, if_neg Bool.false_ne_true, liveOffer_eq_ok_iff.mpr hoffer]
    simp only [bind, Except.bind, hprice]
    simp [hq, hg, hle]
    rfl

/-- A taker of everything pays everything; a taker of less leaves something of both amounts. -/
theorem remainder?_cases {offer : Offer} {quantity given : Wad}
    (h : offer.IsFill quantity given) :
    (remainder? offer quantity given = none ∧
        quantity.raw.toNat = offer.payAmount.raw.toNat ∧
        given.raw.toNat = offer.buyAmount.raw.toNat) ∨
      ∃ rest, remainder? offer quantity given = some rest ∧
        rest.payAmount.raw.toNat + quantity.raw.toNat = offer.payAmount.raw.toNat ∧
        rest.buyAmount.raw.toNat + given.raw.toNat = offer.buyAmount.raw.toNat ∧
        0 < rest.payAmount.raw.toNat ∧ 0 < rest.buyAmount.raw.toNat := by
  obtain ⟨hq, hle, -, hg, hgiven⟩ := h
  have hleft : (offer.payAmount - quantity).raw.toNat =
      offer.payAmount.raw.toNat - quantity.raw.toNat := rfl
  have hwanted : (offer.buyAmount - given).raw.toNat =
      offer.buyAmount.raw.toNat - given.raw.toNat := rfl
  by_cases hz : (offer.payAmount - quantity).isZero = true
  · have hzero := Wad.isZero_iff.mp hz
    have hall : quantity.raw.toNat = offer.payAmount.raw.toNat := by omega
    rw [hall, Nat.mul_div_cancel_left _ (by omega)] at hgiven
    exact .inl ⟨if_pos hz, hall, hgiven⟩
  · have hpos := Wad.isZero_eq_false_iff.mp (Bool.eq_false_iff.mpr hz)
    have hlt : quantity.raw.toNat < offer.payAmount.raw.toNat := by omega
    have hbuy : 0 < offer.buyAmount.raw.toNat := by
      apply Nat.pos_of_ne_zero
      intro hzero
      rw [hzero, Nat.mul_zero, Nat.zero_div] at hgiven
      omega
    have hless : given.raw.toNat < offer.buyAmount.raw.toNat := by
      rw [hgiven, Nat.div_lt_iff_lt_mul (by omega), Nat.mul_comm offer.buyAmount.raw.toNat]
      exact Nat.mul_lt_mul_of_pos_right hlt hbuy
    exact .inr ⟨_, if_neg hz, by simp only [hleft]; omega, by simp only [hwanted]; omega, hpos,
      by simp only [hwanted]; omega⟩

theorem bump_eq_ok_iff {s : Sandbox} {id : OrderId} {e : Effect} :
    s.bump id = .ok e ↔
      ∃ offer, s.offer? id = some offer ∧ e = (s, [s.announce .bump id offer]) := by
  simp only [bump, bind_eq_ok_iff, liveOffer_eq_ok_iff, pure, Except.pure, Except.ok.injEq]
  simp only [eq_comm]

theorem kill_eq_ok_iff {s : Sandbox} {id : OrderId} {e : Effect} :
    s.kill id = .ok e ↔
      ∃ offer, s.offer? id = some offer ∧ (offer.owner = s.sender ∨ s.isClosed = true) ∧
        e = (s.setOffer id none, [s.announce .kill id offer]) := by
  simp only [kill, bind_eq_ok_iff, liveOffer_eq_ok_iff]
  refine exists_congr fun offer => and_congr_right fun _ => ?_
  split
  next h =>
    have hallowed : offer.owner = s.sender ∨ s.isClosed = true := by simpa using h
    simp only [hallowed, true_and, Except.ok.injEq]
    exact eq_comm
  next h =>
    have hallowed : ¬ (offer.owner = s.sender ∨ s.isClosed = true) := by simpa using h
    simp only [hallowed, false_and, reduceCtorEq]

end Sandbox

end Barter
