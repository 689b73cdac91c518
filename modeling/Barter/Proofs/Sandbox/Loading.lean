import Barter.Proofs.Client.Lookup
import Barter.Proofs.Sandbox.WellFormed
import Mathlib.Data.List.Forall2

namespace Barter

structure SnapshotOrder.Describes (market : Address) (d : SnapshotOrder) (o : Order) : Prop where
  market_eq : o.market = market
  id_eq : o.id = d.id
  maker_eq : o.maker = d.owner
  payToken_eq : o.payToken = d.payToken
  payAmount_eq : Wad.ofText d.payAmount = .ok o.payAmount
  buyToken_eq : o.buyToken = d.buyToken
  buyAmount_eq : Wad.ofText d.buyAmount = .ok o.buyAmount
  timestamp_eq : o.timestamp = d.timestamp

namespace SnapshotOrder

variable {d : SnapshotOrder}

theorem ofText_of_amount {side : Side} {text : String} {a : Wad} (h : d.amount side text = .ok a) :
    Wad.ofText text = .ok a :=
  mapError_eq_ok_iff.mp h

theorem describes_of_offer {offer : Offer} (h : d.offer = .ok offer) (market : Address) :
    Describes market d (offer.order market d.id) := by
  obtain ⟨_, hpay, hbuy, hoffer⟩ := offer_spec h
  rw [hoffer]
  exact ⟨rfl, rfl, rfl, rfl, ofText_of_amount hpay, rfl, ofText_of_amount hbuy, rfl⟩

section

variable {market : Address} {orders : List SnapshotOrder} {described : List Order}
  (h : List.Forall₂ (Describes market) orders described)

include h

theorem exists_describes {o : Order} (ho : o ∈ described) : ∃ d ∈ orders, Describes market d o := by
  induction h with
  | nil => cases ho
  | cons hd _ ih =>
      rcases List.mem_cons.mp ho with rfl | ho
      · exact ⟨_, List.mem_cons_self, hd⟩
      · obtain ⟨d, hmem, hdescribes⟩ := ih ho
        exact ⟨d, List.mem_cons_of_mem _ hmem, hdescribes⟩

theorem map_id_eq : described.map (·.id.toNat) = orders.map (·.id.toNat) := by
  induction h with
  | nil => rfl
  | cons hd _ ih => rw [List.map_cons, List.map_cons, hd.id_eq, ih]

end

end SnapshotOrder

namespace Sandbox

def Shows (s : Sandbox) (o : Order) : Prop :=
  ∃ offer, s.offer? o.id = some offer ∧ o = offer.order s.market o.id

theorem shows_order_iff {s : Sandbox} {id : OrderId} {offer : Offer} :
    s.Shows (offer.order s.market id) ↔ s.offer? id = some offer := by
  constructor
  · rintro ⟨found, hfound, heq⟩
    cases offer
    cases found
    cases heq
    exact hfound
  · intro h
    exact ⟨offer, h, rfl⟩

structure Loads (s : Sandbox) (described : List Order) (t : Sandbox) : Prop where
  market : t.market = s.market
  kind : t.kind = s.kind
  lastId : t.lastId.toNat = (described.map (·.id.toNat)).foldl max s.lastId.toNat
  shows : ∀ o, t.Shows o ↔ s.Shows o ∨ o ∈ described
  unused : ∀ o ∈ described, s.offer? o.id = none
  distinct : described.Pairwise (·.id ≠ ·.id)

theorem toNat_lastId_reserveIds (s : Sandbox) (id : OrderId) :
    (s.reserveIds id).lastId.toNat = max s.lastId.toNat id.toNat := by
  have hmax : (s.reserveIds id).lastId = if s.lastId ≤ id then id else s.lastId := rfl
  rw [hmax, Nat.max_def]
  simp only [UInt64.le_iff_toNat_le]
  split <;> rfl

theorem offer?_insertAt_eq_none_iff {s : Sandbox} {id other : OrderId} {offer : Offer} :
    (s.insertAt id offer).offer? other = none ↔ id ≠ other ∧ s.offer? other = none := by
  rw [offer?_insertAt]
  by_cases hid : id = other
  · rw [if_pos hid]
    exact iff_of_false nofun fun h => h.1 hid
  · rw [if_neg hid]
    exact (and_iff_right hid).symm

theorem shows_insertAt {s : Sandbox} {id : OrderId} {offer : Offer} (hnone : s.offer? id = none)
    (o : Order) :
    (s.insertAt id offer).Shows o ↔ o = offer.order s.market id ∨ s.Shows o := by
  rw [Shows, Shows, offer?_insertAt]
  by_cases hid : id = o.id
  · subst hid
    rw [if_pos rfl, hnone]
    constructor
    · rintro ⟨_, ⟨⟩, ho⟩
      exact .inl ho
    · rintro (ho | ⟨_, ⟨⟩, _⟩)
      exact ⟨offer, rfl, ho⟩
  · rw [if_neg hid]
    constructor
    · exact .inr
    · rintro (rfl | hshows)
      · exact absurd rfl hid
      · exact hshows

theorem Loads.place {s t : Sandbox} {id : OrderId} {offer : Offer} {described : List Order}
    (hnone : s.offer? id = none) (h : (s.insertAt id offer).Loads described t) :
    s.Loads (offer.order s.market id :: described) t := by
  have hlater (o : Order) (ho : o ∈ described) : id ≠ o.id ∧ s.offer? o.id = none :=
    offer?_insertAt_eq_none_iff.mp (h.unused o ho)
  refine ⟨h.market, h.kind, ?_, fun o => ?_, ?_, ?_⟩
  · rw [h.lastId, List.map_cons, List.foldl_cons]
    exact congrArg (List.foldl max · _) (s.toNat_lastId_reserveIds id)
  · rw [h.shows, shows_insertAt hnone, List.mem_cons, or_comm (a := _ = _), or_assoc]
  · exact List.forall_mem_cons.mpr ⟨hnone, fun o ho => (hlater o ho).2⟩
  · exact List.pairwise_cons.mpr ⟨fun o ho => (hlater o ho).1, h.distinct⟩

/-- A snapshot that is taken in is there order by order. -/
theorem loads_of_foldlM {s t : Sandbox} {orders : List SnapshotOrder}
    (h : orders.foldlM Snapshot.place s = .ok t) :
    ∃ described, List.Forall₂ (SnapshotOrder.Describes s.market) orders described ∧
      s.Loads described t := by
  induction orders generalizing s with
  | nil =>
      cases h
      exact ⟨[], .nil, rfl, rfl, rfl, fun o => (or_iff_left List.not_mem_nil).symm, nofun, .nil⟩
  | cons d rest ih =>
      rw [List.foldlM_cons] at h
      obtain ⟨placed, hplace, h⟩ := bind_eq_ok_iff.mp h
      obtain ⟨_, hnone, offer, hoffer, rfl⟩ := place_eq_ok_iff.mp hplace
      obtain ⟨described, hdescribes, hloads⟩ := ih h
      exact ⟨_, .cons (SnapshotOrder.describes_of_offer hoffer s.market) hdescribes,
        hloads.place hnone⟩

/-- A market that was just opened from a snapshot has the orders that the snapshot describes and no
others, and counts their ids and those reserved as used. -/
theorem shows_of_snapshot {snapshot : Snapshot} {start : UInt64} {t : Sandbox}
    (h : snapshot.sandbox start = .ok t) :
    t.market = snapshot.address ∧ t.kind = snapshot.kind ∧
      (snapshot.lastOfferId.toNat :: snapshot.orders.map (·.id.toNat)).max? =
        some t.lastId.toNat ∧
      ∃ described,
        List.Forall₂ (SnapshotOrder.Describes snapshot.address) snapshot.orders described ∧
        described.Pairwise (·.id ≠ ·.id) ∧ ∀ o, t.Shows o ↔ o ∈ described := by
  obtain ⟨filled, hfilled, h⟩ := bind_eq_ok_iff.mp h
  obtain ⟨described, hdescribes, hloads⟩ := loads_of_foldlM hfilled
  cases h
  have hids := SnapshotOrder.map_id_eq hdescribes
  have hfold (ids : List Nat) (n : Nat) : ids.foldl max n = max n (ids.foldl max 0) := by
    have hassoc : ids.foldl max (max n 0) = max n (ids.foldl max 0) := List.foldl_assoc
    rwa [Nat.max_zero] at hassoc
  refine ⟨hloads.market, hloads.kind, ?_, described, hdescribes, hloads.distinct, fun o => ?_⟩
  · rw [List.max?_cons', toNat_lastId_reserveIds, hloads.lastId, hids, Nat.max_comm]
    exact congrArg some (hfold _ _)
  · refine (hloads.shows o).trans (or_iff_right ?_)
    rintro ⟨offer, hoffer, _⟩
    simp [offer?, Sandbox.new] at hoffer

end Sandbox

end Barter
