import Barter.Proofs.Hint

namespace Barter

/-- The order of a market's list: prices fall, and of two orders at one price the later one stands
in front. -/
def Order.IsListedBefore (a b : Order) : Prop :=
  b.sellToBuyPrice < a.sellToBuyPrice ∨ a.sellToBuyPrice = b.sellToBuyPrice ∧ b.id < a.id

instance (a b : Order) : Decidable (a.IsListedBefore b) :=
  inferInstanceAs (Decidable (_ ∨ _))

theorem Order.IsListedBefore.price_le {a b : Order} (h : a.IsListedBefore b) :
    b.sellToBuyPrice ≤ a.sellToBuyPrice := by
  rcases h with hlt | ⟨heq, _⟩
  · exact Nat.le_of_lt hlt
  · rw [heq]
    exact Nat.le_refl _

namespace Hint

def insertBehind (hint : OrderId) (new : Order) : List Order → List Order
  | [] => [new]
  | o :: rest => if o.id = hint then o :: new :: rest else o :: insertBehind hint new rest

/-- The list once a new order stands where the hint says: directly behind the order with that id,
and at the head for zero. -/
def insertAt (hint : OrderId) (new : Order) (listed : List Order) : List Order :=
  if hint = 0 then new :: listed else insertBehind hint new listed

theorem insertBehind_append {ahead behind : List Order} {o : Order} (new : Order)
    (hother : ∀ a ∈ ahead, a.id ≠ o.id) :
    insertBehind o.id new (ahead ++ o :: behind) = ahead ++ o :: new :: behind := by
  induction ahead with
  | nil => exact if_pos rfl
  | cons a ahead ih =>
      obtain ⟨hne, hother⟩ := List.forall_mem_cons.mp hother
      rw [List.cons_append, insertBehind, if_neg hne, ih hother, List.cons_append]

variable {listed : List Order} {pair : TokenPair} {price : Wad}

theorem IsNearest.price_lt {o b : Order} (h : IsNearest listed pair price o) (hb : b ∈ listed)
    (hpair : b.pair = pair) (hbefore : o.IsListedBefore b) : b.sellToBuyPrice < price := by
  refine Nat.lt_of_not_le fun hle => ?_
  rcases h.first b hb ⟨hpair, hle⟩, hbefore with ⟨hlt | ⟨heq, hid⟩, hlt' | ⟨heq', hid'⟩⟩
  · exact Nat.lt_asymm hlt hlt'
  · rw [heq'] at hlt
    exact Nat.lt_irrefl _ hlt
  · rw [heq] at hlt'
    exact Nat.lt_irrefl _ hlt'
  · exact UInt64.not_lt.mpr hid hid'

structure IsCut (listed : List Order) (price : Wad) (ahead behind : List Order) : Prop where
  eq_append : listed = ahead ++ behind
  le_ahead : ∀ o ∈ ahead, price ≤ o.sellToBuyPrice
  behind_lt : ∀ o ∈ behind, o.sellToBuyPrice < price

theorem IsCut.falls {ahead behind : List Order} {new : Order} (h : IsCut listed price ahead behind)
    (hlisted : listed.Pairwise Order.IsListedBefore) (hnew : new.sellToBuyPrice = price) :
    (ahead ++ new :: behind).Pairwise fun a b => b.sellToBuyPrice ≤ a.sellToBuyPrice := by
  have hfalls : (ahead ++ behind).Pairwise fun a b => b.sellToBuyPrice ≤ a.sellToBuyPrice := by
    rw [← h.eq_append]
    exact hlisted.imp Order.IsListedBefore.price_le
  obtain ⟨hahead, hbehind, hacross⟩ := List.pairwise_append.mp hfalls
  refine List.pairwise_append.mpr ⟨hahead, List.pairwise_cons.mpr ⟨?_, hbehind⟩, ?_⟩
  · intro b hb
    rw [hnew]
    exact Nat.le_of_lt (h.behind_lt b hb)
  · intro a ha b hb
    rcases List.mem_cons.mp hb with rfl | hb
    · rw [hnew]
      exact h.le_ahead a ha
    · exact hacross a ha b hb

section

variable (hpair : ∀ o ∈ listed, o.pair = pair) (hpos : ∀ o ∈ listed, 1 ≤ o.id)
  (hdistinct : (listed.map Order.id).Nodup) (hlisted : listed.Pairwise Order.IsListedBefore)
include hpair hpos hdistinct hlisted

/-- The hint is where the list is cut by the price. It is the last of the orders that are not
cheaper: of those at one price, the one with the lowest id. -/
theorem exists_cut_at_position (price : Wad) (new : Order) :
    ∃ ahead behind, IsCut listed price ahead behind ∧
      insertAt (position listed pair price) new listed = ahead ++ new :: behind := by
  rcases position_cases listed pair price with ⟨hzero, hnone⟩ | ⟨o, ho, hid⟩
  · refine ⟨[], listed, ⟨rfl, nofun, fun o ho => ?_⟩, ?_⟩
    · exact Nat.lt_of_not_le fun hle => hnone o ho ⟨hpair o ho, hle⟩
    · rw [hzero]
      exact if_pos rfl
  · obtain ⟨ahead, behind, hsplit⟩ := List.append_of_mem ho.mem
    rw [hsplit] at hlisted hdistinct
    obtain ⟨_, hbehind, hahead⟩ := List.pairwise_append.mp hlisted
    refine ⟨ahead ++ [o], behind, ⟨?split, fun a ha => ?ahead, fun b hb => ?behind⟩, ?inserted⟩
    case split => rw [hsplit, List.append_assoc, List.singleton_append]
    case ahead =>
      rcases List.mem_append.mp ha with ha | ha
      · exact Nat.le_trans ho.rival.price_le (hahead a ha o List.mem_cons_self).price_le
      · rw [List.mem_singleton.mp ha]
        exact ho.rival.price_le
    case behind =>
      have hmem : b ∈ listed := by
        rw [hsplit]
        exact List.mem_append_right _ (List.mem_cons_of_mem _ hb)
      exact ho.price_lt hmem (hpair b hmem) (List.rel_of_pairwise_cons hbehind hb)
    case inserted =>
      have hne : o.id ≠ 0 := by
        intro hzero
        have hone := hpos o ho.mem
        rw [hzero] at hone
        exact absurd hone (by decide)
      have hother (a : Order) (ha : a ∈ ahead) : a.id ≠ o.id := by
        rw [List.map_append, List.map_cons] at hdistinct
        exact (List.nodup_append.mp hdistinct).2.2 _ (List.mem_map_of_mem ha) _ List.mem_cons_self
      rw [hid, insertAt, if_neg hne, hsplit, insertBehind_append new hother, List.append_assoc,
        List.singleton_append]

/-- A new order that is put where the hint says keeps the prices falling: all that stand before it
are at least as dear, and all that stand behind it are cheaper. -/
theorem insertAt_position_falls (price : Wad) (new : Order) :
    let inserted := insertAt (position listed pair price) new listed
    (∃ ahead behind, listed = ahead ++ behind ∧ inserted = ahead ++ new :: behind ∧
      (∀ o ∈ ahead, price ≤ o.sellToBuyPrice) ∧ ∀ o ∈ behind, o.sellToBuyPrice < price) ∧
    (new.sellToBuyPrice = price →
      inserted.Pairwise fun a b => b.sellToBuyPrice ≤ a.sellToBuyPrice) := by
  intro inserted
  obtain ⟨ahead, behind, hcut, hinserted⟩ :=
    exists_cut_at_position hpair hpos hdistinct hlisted price new
  refine ⟨⟨ahead, behind, hcut.eq_append, hinserted, hcut.le_ahead, hcut.behind_lt⟩, fun hnew => ?_⟩
  rw [show inserted = ahead ++ new :: behind from hinserted]
  exact hcut.falls hlisted hnew

/-- What is not kept is that the later one of two orders at one price stands first: the new order,
the latest of all, goes behind those that are as dear. -/
theorem not_isListedBefore_insertAt {new tied : Order} (hnew : new.sellToBuyPrice = price)
    (hlatest : ∀ o ∈ listed, o.id < new.id) (hmem : tied ∈ listed)
    (htied : tied.sellToBuyPrice = price) :
    ¬ (insertAt (position listed pair price) new listed).Pairwise Order.IsListedBefore := by
  obtain ⟨ahead, behind, hcut, hinserted⟩ :=
    exists_cut_at_position hpair hpos hdistinct hlisted price new
  have hahead : tied ∈ ahead := by
    have hmem' := hmem
    rw [hcut.eq_append, List.mem_append] at hmem'
    refine hmem'.resolve_right fun hbehind => ?_
    have hlt := hcut.behind_lt tied hbehind
    rw [htied] at hlt
    exact Nat.lt_irrefl _ hlt
  rw [hinserted]
  intro hpairwise
  have hbefore := (List.pairwise_append.mp hpairwise).2.2 tied hahead new List.mem_cons_self
  rcases hbefore with hlt | ⟨_, hid⟩
  · rw [hnew, htied] at hlt
    exact Nat.lt_irrefl _ hlt
  · exact UInt64.lt_asymm hid (hlatest tied hmem)

end

def trialListed : List Order :=
  [5, 3, 1, 4].filterMap fun id => trialOrders.find? (·.id = id)

def trialNew : Order :=
  { payToken := trialOrders.a, payAmount := .ofNumber 6, buyToken := trialOrders.b,
    buyAmount := .ofNumber 3, market := .zero, id := 6, maker := .zero, timestamp := 0 }

theorem insertAt_position_falls_of_trial :
    let inserted := insertAt (position trialListed trialNew.pair (.ofNumber 2)) trialNew trialListed
    inserted.map Order.id = [5, 3, 1, 6, 4] ∧
      inserted.Pairwise fun a b => b.sellToBuyPrice ≤ a.sellToBuyPrice := by
  intro inserted
  have hpair : ∀ o ∈ trialListed, o.pair = trialNew.pair := by decide
  obtain ⟨_, hfalls⟩ := insertAt_position_falls hpair (by decide) (by decide) (by decide)
    (.ofNumber 2) trialNew
  exact ⟨by decide, hfalls (by decide)⟩

/-- Now that order 6 stands behind order 1, the next order below the two is put between them. -/
example :
    let listed := insertAt 1 trialNew trialListed
    let cheaper : Order := { trialNew with payAmount := .ofNumber 4, id := 7 }
    (insertAt (position listed trialNew.pair cheaper.sellToBuyPrice) cheaper listed).map Order.id =
      [5, 3, 1, 7, 6, 4] := by
  decide

end Hint

end Barter
