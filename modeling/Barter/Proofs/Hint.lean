import Barter.Hint
import Mathlib.Data.List.MinMax
import Mathlib.Data.List.Nodup
import Mathlib.Data.Prod.Lex

namespace Barter

/-- The order is one of those that another of the same pair, sold at `price`, may stand behind. -/
structure Order.IsRival (o : Order) (pair : TokenPair) (price : Wad) : Prop where
  pair_eq : o.pair = pair
  price_le : price ≤ o.sellToBuyPrice

instance (o : Order) (pair : TokenPair) (price : Wad) : Decidable (o.IsRival pair price) :=
  decidable_of_iff (o.pair = pair ∧ price ≤ o.sellToBuyPrice)
    ⟨fun h => ⟨h.1, h.2⟩, fun h => ⟨h.pair_eq, h.price_le⟩⟩

namespace Hint

namespace Candidate

def key (c : Candidate) : Nat ×ₗ Nat :=
  toLex (c.price.raw.toNat, c.id.toNat)

theorem before_iff {a b : Candidate} : a.before b = true ↔ a.key < b.key := by
  have hid : a.id < b.id ↔ a.id.toNat < b.id.toNat := UInt64.lt_iff_toNat_lt
  have hprice : a.price < b.price ↔ a.price.raw.toNat < b.price.raw.toNat := Iff.rfl
  have heq : a.price = b.price ↔ a.price.raw.toNat = b.price.raw.toNat := by
    rw [Wad.ext_iff, Word.ext_iff]
  rw [before, Bool.or_eq_true, Bool.and_eq_true, decide_eq_true_eq, decide_eq_true_eq, beq_iff_eq,
    hid, hprice, heq, Prod.Lex.lt_iff]
  rfl

end Candidate

theorem foldl_first_eq_argmin (cs : List Candidate) :
    cs.foldl first none = cs.argmin Candidate.key := by
  have hstep : first = List.argAux fun b c => Candidate.key b < Candidate.key c := by
    funext best c
    cases best with
    | none => rfl
    | some b =>
        simp only [first, List.argAux, ← Candidate.before_iff]
        cases c.before b <;> rfl
  rw [hstep]
  rfl

theorem mem_candidates_iff {orders : List Order} {pair : TokenPair} {price : Wad} {c : Candidate} :
    c ∈ candidates orders pair price ↔
      ∃ o ∈ orders, o.IsRival pair price ∧ c = ⟨o.sellToBuyPrice, o.id⟩ := by
  rw [candidates, List.mem_filter, List.mem_map, decide_eq_true_eq]
  constructor
  · rintro ⟨⟨o, ho, rfl⟩, hprice⟩
    obtain ⟨ho, hpair⟩ := List.mem_filter.mp ho
    exact ⟨o, ho, ⟨eq_of_beq hpair, hprice⟩, rfl⟩
  · rintro ⟨o, ho, ⟨hpair, hprice⟩, rfl⟩
    exact ⟨⟨o, List.mem_filter.mpr ⟨ho, beq_iff_eq.mpr hpair⟩, rfl⟩, hprice⟩

variable {orders : List Order} {pair : TokenPair} {price : Wad}

/-- Of the rivals among the orders none is cheaper, and of those as cheap none has a lower id. -/
structure IsNearest (orders : List Order) (pair : TokenPair) (price : Wad) (o : Order) : Prop where
  mem : o ∈ orders
  rival : o.IsRival pair price
  first : ∀ other ∈ orders, other.IsRival pair price →
    o.sellToBuyPrice < other.sellToBuyPrice ∨
      o.sellToBuyPrice = other.sellToBuyPrice ∧ o.id ≤ other.id

theorem position_cases (orders : List Order) (pair : TokenPair) (price : Wad) :
    (position orders pair price = 0 ∧ ∀ o ∈ orders, ¬ o.IsRival pair price) ∨
      ∃ o, IsNearest orders pair price o ∧ position orders pair price = o.id := by
  rw [position, foldl_first_eq_argmin]
  cases hchosen : (candidates orders pair price).argmin Candidate.key with
  | none =>
      have hempty := List.argmin_eq_none.mp hchosen
      refine .inl ⟨rfl, fun o ho hrival => ?_⟩
      have hmem := mem_candidates_iff.mpr ⟨o, ho, hrival, rfl⟩
      rw [hempty] at hmem
      cases hmem
  | some chosen =>
      obtain ⟨o, ho, hrival, rfl⟩ := mem_candidates_iff.mp (List.argmin_mem hchosen)
      refine .inr ⟨o, ⟨ho, hrival, fun other hother hrival' => ?_⟩, rfl⟩
      have hmem := mem_candidates_iff.mpr ⟨other, hother, hrival', rfl⟩
      have hle := List.le_of_mem_argmin hmem hchosen
      rcases Prod.Lex.le_iff.mp hle with hlt | ⟨heq, hid⟩
      · exact .inl hlt
      · exact .inr ⟨Wad.ext (Word.ext heq), UInt64.le_iff_toNat_le.mpr hid⟩

/-- The two may be taken from different lists, if each list has the other's. -/
theorem IsNearest.id_eq {orders' : List Order} {o o' : Order} (h : IsNearest orders pair price o)
    (h' : IsNearest orders' pair price o') (hmem : o ∈ orders') (hmem' : o' ∈ orders) :
    o.id = o'.id := by
  rcases h.first o' hmem' h'.rival, h'.first o hmem h.rival with
    ⟨hlt | ⟨heq, hle⟩, hlt' | ⟨heq', hle'⟩⟩
  · exact absurd hlt (Nat.lt_asymm hlt')
  · rw [heq'] at hlt
    exact absurd hlt (Nat.lt_irrefl _)
  · rw [heq] at hlt'
    exact absurd hlt' (Nat.lt_irrefl _)
  · exact UInt64.le_antisymm hle hle'

theorem position_eq_zero (h : ∀ o ∈ orders, ¬ o.IsRival pair price) :
    position orders pair price = 0 := by
  rcases position_cases orders pair price with ⟨hzero, _⟩ | ⟨o, ho, _⟩
  · exact hzero
  · exact absurd ho.rival (h o ho.mem)

theorem exists_nearest (h : ∃ o ∈ orders, o.IsRival pair price) :
    ∃ o, IsNearest orders pair price o ∧ position orders pair price = o.id := by
  obtain ⟨rival, hmem, hrival⟩ := h
  rcases position_cases orders pair price with ⟨_, hnone⟩ | hnearest
  · exact absurd hrival (hnone rival hmem)
  · exact hnearest

/-- Only the rivals count: neither where they stand in the list, nor what else is listed. -/
theorem position_congr {orders' : List Order}
    (h : ∀ o : Order, o.IsRival pair price → (o ∈ orders' ↔ o ∈ orders)) :
    position orders' pair price = position orders pair price := by
  by_cases hsome : ∃ o ∈ orders, o.IsRival pair price
  · obtain ⟨o, ho, hid⟩ := exists_nearest hsome
    have hmem := (h o ho.rival).mpr ho.mem
    obtain ⟨o', ho', hid'⟩ := exists_nearest ⟨o, hmem, ho.rival⟩
    rw [hid, hid']
    exact ho'.id_eq ho ((h o' ho'.rival).mp ho'.mem) hmem
  · have hnone (o : Order) (ho : o ∈ orders) (hrival : o.IsRival pair price) : False :=
      hsome ⟨o, ho, hrival⟩
    rw [position_eq_zero hnone,
      position_eq_zero fun o ho hrival => hnone o ((h o hrival).mp ho) hrival]

/-- What the hint is, for orders with ids of their own: zero without a rival, and otherwise the id
of the one nearest order. It is the same for every list with the same rivals. -/
theorem position_spec (orders : List Order) (pair : TokenPair) (price : Wad)
    (hpos : ∀ o ∈ orders, 1 ≤ o.id) (hdistinct : (orders.map Order.id).Nodup) :
    (position orders pair price = 0 ↔ ∀ o ∈ orders, ¬ o.IsRival pair price) ∧
      ((∃ o ∈ orders, o.IsRival pair price) → ∃ o, IsNearest orders pair price o ∧
        (∀ other, IsNearest orders pair price other → other = o) ∧
        position orders pair price = o.id) ∧
      (∀ shuffled : List Order, shuffled.Perm orders →
        position shuffled pair price = position orders pair price) ∧
      ∀ orders' : List Order, (∀ o, o.IsRival pair price → (o ∈ orders' ↔ o ∈ orders)) →
        position orders' pair price = position orders pair price := by
  refine ⟨⟨fun hzero o ho hrival => ?none, position_eq_zero⟩, fun hsome => ?some,
    fun _ hperm => position_congr fun _ _ => hperm.mem_iff, fun _ => position_congr⟩
  case none =>
    obtain ⟨nearest, hnearest, hid⟩ := exists_nearest ⟨o, ho, hrival⟩
    have hone := hpos nearest hnearest.mem
    rw [← hid, hzero] at hone
    exact absurd hone (by decide)
  case some =>
    obtain ⟨o, ho, hid⟩ := exists_nearest hsome
    refine ⟨o, ho, fun other hother => ?_, hid⟩
    exact List.inj_on_of_nodup_map hdistinct hother.mem ho.mem
      (hother.id_eq ho hother.mem ho.mem)

def trialOrders : List Order :=
  [(3, a, b, 2, 1), (2, b, a, 2, 1), (1, a, b, 4, 2), (4, a, b, 1, 1), (5, a, b, 3, 1)].map
    fun (id, payToken, buyToken, pay, buy) =>
      { payToken, payAmount := .ofNumber pay, buyToken, buyAmount := .ofNumber buy,
        market := .zero, id, maker := .zero, timestamp := 0 }
where
  a := Bytes.ofNat 20 1
  b := Bytes.ofNat 20 2

theorem position_spec_of_trial :
    let pair : TokenPair := ⟨trialOrders.a, trialOrders.b⟩
    (∃ o, IsNearest trialOrders pair (.ofNumber 2) o ∧ o.id = 1) ∧
      position trialOrders.reverse pair (.ofNumber 2) = 1 ∧
      position (trialOrders.filter fun o => o.id ∈ [1, 3, 5]) pair (.ofNumber 2) = 1 ∧
      position trialOrders pair (.ofNumber 4) = 0 := by
  intro pair
  have hspec (price : Wad) := position_spec trialOrders pair price (by decide) (by decide)
  obtain ⟨_, hsome, hshuffled, hsame⟩ := hspec (.ofNumber 2)
  have hone : position trialOrders pair (.ofNumber 2) = 1 := by decide
  have hkept : ∀ o ∈ trialOrders, o.IsRival pair (.ofNumber 2) →
      o ∈ trialOrders.filter fun o => o.id ∈ [1, 3, 5] := by decide
  refine ⟨?_, ?_, ?_, (hspec (.ofNumber 4)).1.mpr (by decide)⟩
  · obtain ⟨o, ho, _, hid⟩ := hsome (by decide)
    exact ⟨o, ho, hid.symm.trans hone⟩
  · rw [hshuffled _ (List.reverse_perm _), hone]
  · rw [hsame _ fun o hrival => ⟨fun ho => (List.mem_filter.mp ho).1, fun ho => hkept o ho hrival⟩,
      hone]

end Hint

end Barter
