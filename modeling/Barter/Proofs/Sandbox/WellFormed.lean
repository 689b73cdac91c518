import Barter.Proofs.Sandbox.Actions
import Barter.Proofs.Sandbox.Handling
import Barter.Proofs.Sandbox.Ids
import Barter.Snapshot

namespace Barter

structure Offer.IsPositive (offer : Offer) : Prop where
  pay_pos : 0 < offer.payAmount.raw.toNat
  buy_pos : 0 < offer.buyAmount.raw.toNat

/-- Of what is taken no more is subtracted than is there, and a taker of less than everything leaves
something of the amount wanted. -/
theorem Offer.IsFill.exact {offer : Offer} {quantity given : Wad} (h : offer.IsFill quantity given) :
    (offer.payAmount - quantity).raw.toNat + quantity.raw.toNat = offer.payAmount.raw.toNat ∧
      (offer.buyAmount - given).raw.toNat + given.raw.toNat = offer.buyAmount.raw.toNat ∧
      (quantity < offer.payAmount → given < offer.buyAmount) := by
  have hpay : (offer.payAmount - quantity).raw.toNat =
      offer.payAmount.raw.toNat - quantity.raw.toNat := rfl
  have hbuy : (offer.buyAmount - given).raw.toNat =
      offer.buyAmount.raw.toNat - given.raw.toNat := rfl
  have hle := h.quantity_le
  rw [hpay, hbuy]
  rcases Sandbox.remainder?_cases h with ⟨_, hall, hprice⟩ | ⟨rest, _, _, hleft, _, hpos⟩
  · refine ⟨by omega, by omega, fun hlt => ?_⟩
    have hless : quantity.raw.toNat < offer.payAmount.raw.toNat := hlt
    omega
  · have hless : given.raw.toNat < offer.buyAmount.raw.toNat := by omega
    exact ⟨by omega, by omega, fun _ => hless⟩

theorem SnapshotOrder.offer_spec {o : SnapshotOrder} {offer : Offer} (h : o.offer = .ok offer) :
    offer.IsPositive ∧ o.amount .pay o.payAmount = .ok offer.payAmount ∧
      o.amount .buy o.buyAmount = .ok offer.buyAmount ∧
      offer = ⟨⟨o.payToken, offer.payAmount, o.buyToken, offer.buyAmount⟩, o.owner, o.timestamp⟩ := by
  obtain ⟨payAmount, hpayText, h⟩ := bind_eq_ok_iff.mp h
  obtain ⟨buyAmount, hbuyText, h⟩ := bind_eq_ok_iff.mp h
  split at h
  · cases h
  next hpay =>
    split at h
    · cases h
    next hbuy =>
      cases h
      exact ⟨⟨Wad.isZero_eq_false_iff.mp (Bool.eq_false_iff.mpr hpay),
        Wad.isZero_eq_false_iff.mp (Bool.eq_false_iff.mpr hbuy)⟩, hpayText, hbuyText, rfl⟩

namespace Sandbox

/-- What can be relied on of the orders of a market: both amounts are positive, and the id has been
given out. -/
structure WellFormed (s : Sandbox) : Prop where
  positive : ∀ id offer, s.offer? id = some offer → offer.IsPositive
  one_le : ∀ id offer, s.offer? id = some offer → 1 ≤ id
  le_lastId : ∀ id offer, s.offer? id = some offer → id ≤ s.lastId

namespace WellFormed

variable {s t after : Sandbox} {id : OrderId} {offer : Offer}

theorem of_orders (hs : s.WellFormed) (hlast : s.lastId ≤ t.lastId)
    (h : ∀ id offer, t.offer? id = some offer →
      s.offer? id = some offer ∨ offer.IsPositive ∧ 1 ≤ id ∧ id ≤ t.lastId) : t.WellFormed := by
  refine ⟨fun id offer hoffer => ?_, fun id offer hoffer => ?_, fun id offer hoffer => ?_⟩
  · rcases h id offer hoffer with hold | ⟨hpos, _, _⟩
    · exact hs.positive id offer hold
    · exact hpos
  · rcases h id offer hoffer with hold | ⟨_, hone, _⟩
    · exact hs.one_le id offer hold
    · exact hone
  · rcases h id offer hoffer with hold | ⟨_, _, hle⟩
    · exact UInt64.le_trans (hs.le_lastId id offer hold) hlast
    · exact hle

theorem of_offers_eq (hs : s.WellFormed) (hoffers : t.offers = s.offers)
    (hlast : s.lastId ≤ t.lastId) : t.WellFormed := by
  refine hs.of_orders hlast fun id offer hoffer => .inl ?_
  rw [← hoffer, offer?_of_offers_eq hoffers]

theorem issued (hs : s.WellFormed) : s.Issued := by
  intro id hlive
  obtain ⟨offer, hoffer⟩ := Option.ne_none_iff_exists'.mp hlive
  exact hs.le_lastId id offer hoffer

theorem insertAt (hs : s.WellFormed) (hone : 1 ≤ id) (hpos : offer.IsPositive) :
    (s.insertAt id offer).WellFormed := by
  obtain ⟨hlast, hle⟩ := s.le_lastId_reserveIds id
  refine hs.of_orders hlast fun other found hfound => ?_
  rw [offer?_insertAt] at hfound
  split at hfound
  next hid =>
    cases hfound
    exact .inr ⟨hpos, hid ▸ hone, hid ▸ hle⟩
  next => exact .inl hfound

theorem insert (hs : s.WellFormed) (hids : s.lastId ≤ s.nextId) (hpos : offer.IsPositive) :
    (s.insert offer).WellFormed := by
  have hone : 1 ≤ s.nextId := by
    have hlt := UInt64.lt_iff_toNat_lt.mp (lt_nextId hids)
    rw [UInt64.le_iff_toNat_le]
    exact Nat.succ_le_of_lt (Nat.lt_of_le_of_lt (Nat.zero_le _) hlt)
  rw [insert_eq_insertAt hids]
  exact hs.insertAt hone hpos

theorem setOffer (hs : s.WellFormed) (hlive : s.offer? id = some offer) {rest? : Option Offer}
    (hpos : ∀ rest, rest? = some rest → rest.IsPositive) : (s.setOffer id rest?).WellFormed := by
  refine hs.of_orders (UInt64.le_refl _) fun other found hfound => ?_
  rw [offer?_setOffer] at hfound
  split at hfound
  next hid =>
    subst hid
    exact .inr ⟨hpos found hfound, hs.one_le _ _ hlive, hs.le_lastId _ _ hlive⟩
  next => exact .inl hfound

theorem executes {logs : List Log} (hs : s.WellFormed) (h : s.Executes after logs)
    (hids : s.lastId ≤ after.lastId) : after.WellFormed := by
  cases h with
  | made terms haccepts => exact hs.insert hids ⟨haccepts.pay_pos, haccepts.buy_pos⟩
  | bumped => exact hs
  | killed id offer hoffer => exact hs.setOffer hoffer nofun
  | configured => exact hs.of_offers_eq rfl hids
  | taken id offer quantity given hoffer hfill =>
      refine hs.setOffer hoffer fun rest hrest => ?_
      rcases remainder?_cases hfill with ⟨hnone, _⟩ | ⟨left, hleft, _, _, hpay, hbuy⟩
      · rw [hnone] at hrest
        cases hrest
      · rw [hleft] at hrest
        cases hrest
        exact ⟨hpay, hbuy⟩

theorem submit (hs : s.WellFormed) {intent : Intent}
    (hids : s.lastId ≤ (s.submit intent).2.lastId) : (s.submit intent).2.WellFormed := by
  have h := s.submit_submits intent
  generalize (s.submit intent).1 = result at h
  generalize (s.submit intent).2 = after at h hids ⊢
  cases h with
  | refused => exact hs
  | trapped | rejected => exact hs.of_offers_eq rfl hids
  | mined after logs hexec =>
      have hstarted : s.started.WellFormed := hs.of_offers_eq rfl (UInt64.le_refl _)
      rw [mine_eq] at hids ⊢
      exact (hstarted.executes hexec hids).of_offers_eq rfl (UInt64.le_refl _)

end WellFormed

theorem wellFormed_new (market : Address) (kind : MarketKind) (sender : Address) (now : UInt64) :
    (Sandbox.new market kind sender now).WellFormed := by
  have hnone (id : OrderId) : (Sandbox.new market kind sender now).offer? id = none := by
    simp [offer?, Sandbox.new]
  constructor <;>
  · intro id offer hoffer
    rw [hnone] at hoffer
    cases hoffer

theorem contains_iff {s : Sandbox} {id : OrderId} :
    s.offers.contains id = true ↔ s.offer? id ≠ none := by
  rw [offer?, Std.ExtTreeMap.contains_eq_isSome_getElem?, Option.isSome_iff_ne_none]

theorem place_eq_ok_iff {s t : Sandbox} {d : SnapshotOrder} :
    Snapshot.place s d = .ok t ↔
      d.id ≠ 0 ∧ s.offer? d.id = none ∧ ∃ offer, d.offer = .ok offer ∧ t = s.insertAt d.id offer := by
  unfold Snapshot.place
  constructor
  · intro h
    split at h
    · cases h
    next hid =>
      split at h
      · cases h
      next hcontains =>
        obtain ⟨offer, hoffer, h⟩ := bind_eq_ok_iff.mp h
        cases h
        exact ⟨hid, Decidable.not_not.mp (mt contains_iff.mpr hcontains), offer, hoffer, rfl⟩
  · rintro ⟨hid, hnone, offer, hoffer, rfl⟩
    rw [if_neg hid, if_neg (fun h => contains_iff.mp h hnone), hoffer]
    rfl

theorem WellFormed.place {s t : Sandbox} {o : SnapshotOrder} (hs : s.WellFormed)
    (h : Snapshot.place s o = .ok t) : t.WellFormed := by
  obtain ⟨hzero, _, offer, hoffer, rfl⟩ := place_eq_ok_iff.mp h
  have hone : 1 ≤ o.id := UInt64.le_iff_toNat_le.mpr
    (Nat.one_le_iff_ne_zero.mpr fun h => hzero (UInt64.toNat_inj.mp h))
  exact hs.insertAt hone (SnapshotOrder.offer_spec hoffer).1

theorem WellFormed.foldlM_place {s t : Sandbox} {orders : List SnapshotOrder} (hs : s.WellFormed)
    (h : orders.foldlM Snapshot.place s = .ok t) : t.WellFormed := by
  induction orders generalizing s with
  | nil =>
      cases h
      exact hs
  | cons o rest ih =>
      rw [List.foldlM_cons] at h
      obtain ⟨placed, hplace, h⟩ := bind_eq_ok_iff.mp h
      exact ih (hs.place hplace) h

inductive Opens : Sandbox → Prop
  | new (market : Address) (kind : MarketKind) (sender : Address) (now : UInt64) :
      Opens (Sandbox.new market kind sender now)
  | snapshot (snapshot : Snapshot) (start : UInt64) {s : Sandbox}
      (h : snapshot.sandbox start = .ok s) : Opens s

/-- To put orders in place changes which orders there are and the last id, and nothing else. -/
theorem frame_of_foldlM {s t : Sandbox} {orders : List SnapshotOrder}
    (h : orders.foldlM Snapshot.place s = .ok t) :
    t = { s with offers := t.offers, lastId := t.lastId } := by
  induction orders generalizing s with
  | nil =>
      cases h
      rfl
  | cons o rest ih =>
      rw [List.foldlM_cons] at h
      obtain ⟨placed, hplace, h⟩ := bind_eq_ok_iff.mp h
      obtain ⟨_, _, offer, _, rfl⟩ := place_eq_ok_iff.mp hplace
      exact (ih h).trans rfl

theorem Opens.wellFormed {s : Sandbox} (h : s.Opens) : s.WellFormed := by
  cases h with
  | new => exact wellFormed_new _ _ _ _
  | snapshot snapshot start h =>
      obtain ⟨filled, hfilled, h⟩ := bind_eq_ok_iff.mp h
      cases h
      have hempty := (wellFormed_new snapshot.address snapshot.kind snapshot.sender
        (snapshot.now.getD start)).of_offers_eq (t := { Sandbox.new snapshot.address snapshot.kind
          snapshot.sender (snapshot.now.getD start) with
            closeTime := snapshot.closeTime.getD 0xffffffffffffffff
            buyEnabled := snapshot.buyEnabled
            matchingEnabled := snapshot.matchingEnabled
            whitelist := Std.ExtTreeSet.ofList snapshot.whitelist }) rfl (UInt64.le_refl _)
      exact (hempty.foldlM_place hfilled).of_offers_eq rfl (le_lastId_reserveIds _ _).1

end Sandbox

/-- Whatever is put in place past all transactions has positive amounts, and an id that is not
zero. -/
def Session.SandboxAction.IsProper : SandboxAction → Prop
  | .insert order => order.IsPositive
  | .insertAt id order => order.IsPositive ∧ 1 ≤ id
  | _ => True

namespace Sandbox

open Session

theorem WellFormed.act {s : Sandbox} {a : SandboxAction} (hs : s.WellFormed) (ha : a.IsProper)
    (hids : s.lastId ≤ (s.act a).lastId) : (s.act a).WellFormed := by
  have h := s.act_acts a
  generalize s.act a = t at h hids ⊢
  cases h with
  | submitted intent => exact hs.submit hids
  | inserted offer => exact hs.insert hids ha
  | placed id offer => exact hs.insertAt ha.2 ha.1
  | kept _ hoffers hlast => exact hs.of_offers_eq hoffers hlast

theorem WellFormed.perform {s : Sandbox} {actions : List SandboxAction} (hs : s.WellFormed)
    (hproper : ∀ a ∈ actions, a.IsProper) (hids : s.CountsOn actions) :
    (s.perform actions).WellFormed := by
  induction actions generalizing s with
  | nil => exact hs
  | cons a rest ih =>
      obtain ⟨ha, hrest⟩ := List.forall_mem_cons.mp hproper
      exact ih (hs.act ha hids.1) hrest hids.2

/-- A market never divides by zero as long as every order has something on sale. -/
theorem WellFormed.not_trapped {s : Sandbox} (hs : s.WellFormed) (intent : Intent) (trap : Trap) :
    (s.submit intent).1 ≠ .error (.trapped trap) := by
  have h := s.submit_handles intent
  generalize (s.submit intent).1 = result at h ⊢
  generalize (s.submit intent).2 = after at h
  cases h with
  | trapped _ _ id _ offer _ hoffer hzero =>
      have hpos := (hs.positive id offer hoffer).pay_pos
      omega
  | elsewhere | unknown | garbled | rejected | mined => nofun

theorem take_of_mined {s : Sandbox} {intent : Intent} {id : OrderId} {quantity : Wad}
    {hash : Hash} {receipt : Receipt}
    (hread : Command.ofCall s.kind intent.method intent.args = .ok (.take id quantity))
    (hok : (s.submit intent).1 = .ok ⟨hash, some (.ok receipt)⟩) :
    ∃ offer given, s.offer? id = some offer ∧ offer.IsFill quantity given ∧
      (s.submit intent).2.offer? id = remainder? offer quantity given := by
  obtain ⟨c, done, hread', hexec, hafter⟩ := (s.submit_handles intent).mined_of_ok hok
  obtain rfl := Except.ok.inj (hread.symm.trans hread')
  obtain ⟨_, offer, given, hoffer, hfill, heffect⟩ := take_eq_ok_iff.mp hexec
  obtain ⟨rfl, _⟩ := Prod.mk.inj heffect
  refine ⟨offer, given, hoffer, hfill, ?_⟩
  rw [hafter, mine_eq]
  exact (offer?_setOffer s.started id _ id).trans (if_pos rfl)

/-- As long as only proper orders are put in place and the ids do not run out, every order has
positive amounts, no transaction divides by zero, and no take subtracts more than there is. -/
theorem perform_safe {s : Sandbox} (hs : s.Opens) (actions : List SandboxAction)
    (hproper : ∀ a ∈ actions, a.IsProper) (hids : s.CountsOn actions) :
    let t := s.perform actions
    (∀ id offer, t.offer? id = some offer →
      0 < offer.payAmount.raw.toNat ∧ 0 < offer.buyAmount.raw.toNat ∧ 1 ≤ id ∧ id ≤ t.lastId) ∧
    (∀ intent trap, (t.submit intent).1 ≠ .error (.trapped trap)) ∧
    ∀ intent id quantity hash receipt,
      Command.ofCall t.kind intent.method intent.args = .ok (.take id quantity) →
      (t.submit intent).1 = .ok ⟨hash, some (.ok receipt)⟩ →
      ∃ offer given, t.offer? id = some offer ∧ priceOf offer quantity = .ok given ∧
        (t.submit intent).2.offer? id = remainder? offer quantity given ∧
        (offer.payAmount - quantity).raw.toNat + quantity.raw.toNat = offer.payAmount.raw.toNat ∧
        (offer.buyAmount - given).raw.toNat + given.raw.toNat = offer.buyAmount.raw.toNat ∧
        (quantity < offer.payAmount → given < offer.buyAmount) := by
  intro t
  have ht : t.WellFormed := hs.wellFormed.perform hproper hids
  refine ⟨fun id offer hoffer => ?_, ht.not_trapped, ?_⟩
  · obtain ⟨hpay, hbuy⟩ := ht.positive id offer hoffer
    exact ⟨hpay, hbuy, ht.one_le id offer hoffer, ht.le_lastId id offer hoffer⟩
  · intro intent id quantity hash receipt hread hok
    obtain ⟨offer, given, hoffer, hfill, hafter⟩ := take_of_mined hread hok
    have hprice : priceOf offer quantity = .ok given := priceOf_eq_ok_iff.mpr
      ⟨hfill.product_lt, Nat.pos_iff_ne_zero.mp (ht.positive id offer hoffer).pay_pos,
        hfill.given_eq⟩
    exact ⟨offer, given, hoffer, hprice, hafter, hfill.exact⟩

def trialActions : List SandboxAction :=
  [.insert (trial.offerOf trialTerms), .setFlags false true, .reserveIds 7,
    .submit ((Command.make trialTerms).intent trial.market)]

theorem perform_safe_of_trial :
    let t := trial.perform trialActions
    let intent := (Command.take 1 ⟨.ofUInt64 2⟩).intent t.market
    t.lastId = 8 ∧ (∀ trap, (t.submit intent).1 ≠ .error (.trapped trap)) ∧
      ∃ offer given, t.offer? 1 = some offer ∧ (t.submit intent).2.offer? 1 ≠ none ∧
        given < offer.buyAmount := by
  intro t intent
  have hproper : ∀ a ∈ trialActions, a.IsProper := by
    simp only [trialActions, List.forall_mem_cons, SandboxAction.IsProper]
    exact ⟨⟨by decide, by decide⟩, trivial, trivial, trivial, nofun⟩
  have hids : trial.CountsOn trialActions := ⟨by decide, by decide, by decide, by decide, trivial⟩
  obtain ⟨_, hsafe, hexact⟩ := perform_safe (.new _ _ _ _) trialActions hproper hids
  obtain ⟨offer, given, hoffer, _, _, _, _, hless⟩ := hexact intent 1 ⟨.ofUInt64 2⟩ _ _ rfl rfl
  refine ⟨by decide, hsafe intent, offer, given, hoffer, by decide, hless ?_⟩
  obtain rfl := Option.some.inj (hoffer.symm.trans (by rfl))
  decide

end Sandbox

end Barter
