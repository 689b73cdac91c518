import Barter.Proofs.Client.Price
import Barter.Proofs.Sandbox.Receipts

namespace Barter

/-- The announcement is of the order as it was read, whatever time each of them gives. -/
structure Announcement.IsOf (a : Announcement) (o : Order) : Prop where
  id_eq : a.id = o.id
  maker_eq : a.maker = o.maker
  terms_eq : a.toTerms = o.toTerms

theorem Offer.announced_isOf (offer : Offer) (s : Sandbox) (market : Address) (id : OrderId) :
    (s.announced id offer).IsOf (offer.order market id) :=
  ⟨rfl, rfl, rfl⟩

/-- Anybody may bump an order that is there: the transaction goes through, and all that it leaves is
one log. -/
theorem Sandbox.submit_bump {s : Sandbox} {id : OrderId} {offer : Offer}
    (hoffer : s.offer? id = some offer) :
    let log := s.started.announce .bump id offer
    s.submit ((Command.bump id).intent s.market) =
      (.ok ⟨s.nextHash, some (.ok ⟨s.nextHash, s.block, [log]⟩)⟩, s.started.mine [log]) := by
  intro log
  have hexec : s.started.execute (.bump id) = .ok (s.started, [log]) :=
    bump_eq_ok_iff.mpr ⟨offer, hoffer, rfl⟩
  exact submit_of_execute rfl hexec

theorem Client.order_eq_present {s : Sandbox} {id : OrderId} {offer : Offer}
    {absent : Std.ExtTreeSet OrderId} (hmem : id ∉ absent) (hoffer : s.offer? id = some offer)
    (hbuy : 0 < offer.buyAmount.raw.toNat) :
    (order Sandbox.ledger s.market id ⟨absent, s⟩).1 =
      .ok (.present (offer.order s.market id)) := by
  have hcall := s.call_answer (q := .offer id) rfl
  rw [Sandbox.answer, hoffer] at hcall
  rw [order_of_live hmem hcall, Wad.isZero_eq_false_iff.mpr hbuy]
  rfl

/-- A bump leaves every order as it is and tells of its own as clients are shown it, but for the
time: the log has that of the bump. -/
theorem bump_announces (s : Sandbox) (id : OrderId) (offer : Offer)
    (hoffer : s.offer? id = some offer) :
    let bumped := s.submit ((Command.bump id).intent s.market)
    let asked (t : Sandbox) (absent : Std.ExtTreeSet OrderId) :=
      (Client.order Sandbox.ledger s.market id ⟨absent, t⟩).1
    ∃ log bump,
      bumped.1 = .ok ⟨s.nextHash, some (.ok ⟨s.nextHash, s.block, [log]⟩)⟩ ∧
      bumped.2.market = s.market ∧ bumped.2.offers = s.offers ∧
      Event.ofLog .bump log = .ok (.bump bump) ∧
      ∀ t : Sandbox, t.market = s.market → t.offers = s.offers →
        (0 < offer.buyAmount.raw.toNat → ∀ absent, id ∉ absent →
          ∃ o, asked t absent = .ok (.present o)) ∧
        ∀ absent o, asked t absent = .ok (.present o) →
          bump.IsOf o ∧ bump.timestamp = s.now ∧ o.timestamp = offer.timestamp ∧
            (bump.timestamp = o.timestamp ↔ s.now = offer.timestamp) := by
  intro bumped asked
  let log := s.started.announce .bump id offer
  have hbumped : bumped = _ := Sandbox.submit_bump hoffer
  have htells := (s.started.announce_tells id offer).2.1
  refine ⟨log, s.started.announced id offer, ?_, ?_, ?_, (htells.ofLog_eq .bump).trans rfl,
    fun t hmarket hoffers => ?_⟩
  · rw [hbumped]
  · rw [hbumped]
    rfl
  · rw [hbumped]
    rfl
  · have hoffer' : t.offer? id = some offer := (Sandbox.offer?_of_offers_eq hoffers id).trans hoffer
    refine ⟨fun hbuy absent hmem => ⟨offer.order s.market id, ?_⟩, fun absent o hread => ?_⟩
    · simp only [asked, ← hmarket]
      exact Client.order_eq_present hmem hoffer' hbuy
    · simp only [asked, ← hmarket] at hread
      obtain ⟨found, hfound, rfl⟩ := Client.eq_of_order_present hread
      obtain rfl := Option.some.inj (hfound.symm.trans hoffer')
      exact ⟨found.announced_isOf _ _ _, rfl, rfl, Iff.rfl⟩

theorem bump_retimed :
    let s := (Sandbox.trial.move (Sandbox.trialMove (.make Sandbox.trialTerms))).setTime 9
    ∃ hash receipt log bump o,
      (s.submit ((Command.bump 1).intent s.market)).1 = .ok ⟨hash, some (.ok receipt)⟩ ∧
      receipt.logs = [log] ∧ Event.ofLog .bump log = .ok (.bump bump) ∧
      (Client.order Sandbox.ledger s.market 1 ⟨∅, s⟩).1 = .ok (.present o) ∧
      o.timestamp = 0 ∧ bump.timestamp = 9 :=
  ⟨_, _, _, _, _, rfl, rfl, rfl, rfl, rfl, rfl⟩

theorem bump_announces_of_trial :
    let made := Sandbox.trial.insert (Sandbox.trial.offerOf Sandbox.trialTerms)
    let s := ((made.move (Sandbox.trialMove (.take 1 ⟨.ofUInt64 1⟩))).setTime 9).setSender
      (Bytes.ofNat 20 9)
    let bumped := s.submit ((Command.bump 1).intent s.market)
    ∃ receipt log bump o, bumped.1 = .ok ⟨s.nextHash, some (.ok receipt)⟩ ∧ receipt.logs = [log] ∧
      Event.ofLog .bump log = .ok (.bump bump) ∧
      (Client.order Sandbox.ledger s.market 1 ⟨∅, bumped.2⟩).1 = .ok (.present o) ∧
      bump.IsOf o ∧ bump.timestamp = 9 ∧ o.timestamp = 0 := by
  intro made s bumped
  obtain ⟨left, hleft, hbuy, htime⟩ : ∃ left, s.offer? 1 = some left ∧
      0 < left.buyAmount.raw.toNat ∧ left.timestamp = 0 := ⟨_, rfl, by decide, rfl⟩
  obtain ⟨log, bump, hmined, hmarket, hoffers, hofLog, hreads⟩ := bump_announces s 1 left hleft
  obtain ⟨hread, hagrees⟩ := hreads bumped.2 hmarket hoffers
  obtain ⟨o, ho⟩ := hread hbuy ∅ (by decide)
  obtain ⟨hof, hbump, horder, _⟩ := hagrees ∅ o ho
  exact ⟨_, log, bump, o, hmined, rfl, hofLog, ho, hof, hbump, horder.trans htime⟩

end Barter
