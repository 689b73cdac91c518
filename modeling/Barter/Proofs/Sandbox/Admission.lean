import Barter.Proofs.Sandbox.Loading

namespace Barter

open Snapshot

structure SnapshotOrder.IsValid (d : SnapshotOrder) : Prop where
  id_ne_zero : d.id ≠ 0
  amounts : ∃ pay buy, Wad.ofText d.payAmount = .ok pay ∧ Wad.ofText d.buyAmount = .ok buy ∧
    0 < pay.raw.toNat ∧ 0 < buy.raw.toNat

inductive SnapshotOrder.Misstates (d : SnapshotOrder) : Defect → Prop
  | payText (h : ∀ pay, Wad.ofText d.payAmount ≠ .ok pay) :
      Misstates d (.invalidAmount d.id .pay d.payAmount)
  | buyText (pay : Wad) (hpay : Wad.ofText d.payAmount = .ok pay)
      (h : ∀ buy, Wad.ofText d.buyAmount ≠ .ok buy) :
      Misstates d (.invalidAmount d.id .buy d.buyAmount)
  | payZero (pay buy : Wad) (hpay : Wad.ofText d.payAmount = .ok pay)
      (hbuy : Wad.ofText d.buyAmount = .ok buy) (h : pay.raw.toNat = 0) :
      Misstates d (.invalidAmount d.id .pay d.payAmount)
  | buyZero (pay buy : Wad) (hpay : Wad.ofText d.payAmount = .ok pay)
      (hbuy : Wad.ofText d.buyAmount = .ok buy) (hpos : 0 < pay.raw.toNat)
      (h : buy.raw.toNat = 0) : Misstates d (.invalidAmount d.id .buy d.buyAmount)

/-- The first rule that an order breaks where some ids are taken, and the defect that is told of it.
-/
inductive SnapshotOrder.Breaks (d : SnapshotOrder) (taken : List OrderId) : Defect → Prop
  | zeroId (h : d.id = 0) : Breaks d taken .zeroId
  | duplicate (hid : d.id ≠ 0) (h : d.id ∈ taken) : Breaks d taken (.duplicate d.id)
  | amount (hid : d.id ≠ 0) (hnew : d.id ∉ taken) {defect : Defect} (h : d.Misstates defect) :
      Breaks d taken defect

namespace Snapshot

structure Sound (orders : List SnapshotOrder) : Prop where
  valid : ∀ d ∈ orders, d.IsValid
  distinct : orders.Pairwise (·.id ≠ ·.id)

/-- The market has all that the snapshot says, what it leaves open by default, and nothing else. -/
structure Holds (s : Snapshot) (start : UInt64) (m : Sandbox) : Prop where
  offers : ∀ id offer, m.offer? id = some offer ↔
    ∃ d ∈ s.orders, d.Describes s.address (offer.order s.address id)
  lastId : (s.lastOfferId.toNat :: s.orders.map (·.id.toNat)).max? = some m.lastId.toNat
  whitelist : ∀ pair, pair ∈ m.whitelist ↔ pair ∈ s.whitelist
  frame : m = { Sandbox.new s.address s.kind s.sender (s.now.getD start) with
    offers := m.offers
    lastId := m.lastId
    closeTime := s.closeTime.getD 0xffffffffffffffff
    buyEnabled := s.buyEnabled
    matchingEnabled := s.matchingEnabled
    whitelist := m.whitelist }

theorem sound_cons_iff {d : SnapshotOrder} {orders : List SnapshotOrder} :
    Sound (d :: orders) ↔ d.IsValid ∧ (∀ o ∈ orders, d.id ≠ o.id) ∧ Sound orders := by
  constructor
  · rintro ⟨hvalid, hdistinct⟩
    obtain ⟨hd, hrest⟩ := List.forall_mem_cons.mp hvalid
    obtain ⟨hne, hpairs⟩ := List.pairwise_cons.mp hdistinct
    exact ⟨hd, hne, hrest, hpairs⟩
  · rintro ⟨hd, hne, hvalid, hdistinct⟩
    exact ⟨List.forall_mem_cons.mpr ⟨hd, hvalid⟩, List.pairwise_cons.mpr ⟨hne, hdistinct⟩⟩

theorem Sound.of_perm {orders orders' : List SnapshotOrder} (h : orders.Perm orders')
    (hsound : Sound orders) : Sound orders' :=
  ⟨fun d hd => hsound.valid d (h.mem_iff.mpr hd),
    (h.pairwise_iff Ne.symm).mp hsound.distinct⟩

end Snapshot

namespace SnapshotOrder

variable {d : SnapshotOrder}

theorem Describes.eq {market : Address} {o : Order} (h : d.Describes market o) :
    o = ⟨⟨d.payToken, o.payAmount, d.buyToken, o.buyAmount⟩, market, d.id, d.owner, d.timestamp⟩ := by
  rw [← h.market_eq, ← h.id_eq, ← h.maker_eq, ← h.payToken_eq, ← h.buyToken_eq, ← h.timestamp_eq]

theorem Describes.unique {market : Address} {o o' : Order} (h : d.Describes market o)
    (h' : d.Describes market o') : o = o' := by
  have hpay := Except.ok.inj (h.payAmount_eq.symm.trans h'.payAmount_eq)
  have hbuy := Except.ok.inj (h.buyAmount_eq.symm.trans h'.buyAmount_eq)
  rw [h.eq, h'.eq, hpay, hbuy]

theorem mem_described_iff {market : Address} {orders : List SnapshotOrder} {described : List Order}
    (h : List.Forall₂ (Describes market) orders described) {o : Order} :
    o ∈ described ↔ ∃ d ∈ orders, d.Describes market o := by
  refine ⟨exists_describes h, ?_⟩
  rintro ⟨d, hd, hdescribes⟩
  induction h with
  | nil => cases hd
  | cons hfirst _ ih =>
      rcases List.mem_cons.mp hd with rfl | hd
      · exact hdescribes.unique hfirst ▸ List.mem_cons_self
      · exact List.mem_cons_of_mem _ (ih hd)

theorem offer_of_amounts {pay buy : Wad} (hpay : Wad.ofText d.payAmount = .ok pay)
    (hbuy : Wad.ofText d.buyAmount = .ok buy) :
    d.offer =
      if pay.isZero then .error (.invalidAmount d.id .pay d.payAmount)
      else if buy.isZero then .error (.invalidAmount d.id .buy d.buyAmount)
      else .ok ⟨⟨d.payToken, pay, d.buyToken, buy⟩, d.owner, d.timestamp⟩ := by
  rw [offer, amount, amount, hpay, hbuy]
  rfl

theorem offer_of_payText (h : ∀ pay, Wad.ofText d.payAmount ≠ .ok pay) :
    d.offer = .error (.invalidAmount d.id .pay d.payAmount) := by
  rw [offer, amount]
  cases hpay : Wad.ofText d.payAmount with
  | ok pay => exact absurd hpay (h pay)
  | error => rfl

theorem offer_of_buyText {pay : Wad} (hpay : Wad.ofText d.payAmount = .ok pay)
    (h : ∀ buy, Wad.ofText d.buyAmount ≠ .ok buy) :
    d.offer = .error (.invalidAmount d.id .buy d.buyAmount) := by
  rw [offer, amount, amount, hpay]
  cases hbuy : Wad.ofText d.buyAmount with
  | ok buy => exact absurd hbuy (h buy)
  | error => rfl

theorem offer_eq_error_iff {defect : Defect} : d.offer = .error defect ↔ d.Misstates defect := by
  constructor
  · intro h
    cases hpay : Wad.ofText d.payAmount with
    | error =>
        have hunread (pay : Wad) : Wad.ofText d.payAmount ≠ .ok pay := by rw [hpay]; nofun
        obtain rfl := Except.error.inj ((offer_of_payText hunread).symm.trans h)
        exact .payText hunread
    | ok pay =>
        cases hbuy : Wad.ofText d.buyAmount with
        | error =>
            have hunread (buy : Wad) : Wad.ofText d.buyAmount ≠ .ok buy := by rw [hbuy]; nofun
            obtain rfl := Except.error.inj ((offer_of_buyText hpay hunread).symm.trans h)
            exact .buyText pay hpay hunread
        | ok buy =>
            rw [offer_of_amounts hpay hbuy] at h
            split at h
            next hzero =>
              cases h
              exact .payZero pay buy hpay hbuy (Wad.isZero_iff.mp hzero)
            next hpos =>
              split at h
              next hzero =>
                cases h
                exact .buyZero pay buy hpay hbuy (Nat.pos_of_ne_zero (mt Wad.isZero_iff.mpr hpos))
                  (Wad.isZero_iff.mp hzero)
              next => cases h
  · intro h
    cases h with
    | payText h => exact offer_of_payText h
    | buyText pay hpay h => exact offer_of_buyText hpay h
    | payZero pay buy hpay hbuy h =>
        rw [offer_of_amounts hpay hbuy, if_pos (Wad.isZero_iff.mpr h)]
    | buyZero pay buy hpay hbuy hpos h =>
        have hne : ¬ pay.isZero = true := fun hzero => Nat.ne_of_gt hpos (Wad.isZero_iff.mp hzero)
        rw [offer_of_amounts hpay hbuy, if_neg hne, if_pos (Wad.isZero_iff.mpr h)]

theorem isValid_iff : d.IsValid ↔ d.id ≠ 0 ∧ ∃ offer, d.offer = .ok offer := by
  constructor
  · rintro ⟨hid, pay, buy, hpay, hbuy, hpos, hpos'⟩
    rw [offer_of_amounts hpay hbuy, Wad.isZero_eq_false_iff.mpr hpos,
      Wad.isZero_eq_false_iff.mpr hpos']
    exact ⟨hid, _, rfl⟩
  · rintro ⟨hid, offer, hoffer⟩
    obtain ⟨hpos, hpay, hbuy, _⟩ := offer_spec hoffer
    exact ⟨hid, _, _, ofText_of_amount hpay, ofText_of_amount hbuy, hpos.pay_pos, hpos.buy_pos⟩

end SnapshotOrder

namespace Sandbox

section

variable {s t : Sandbox} {d : SnapshotOrder} {orders : List SnapshotOrder} {defect : Defect}

theorem exists_place_iff :
    (∃ t, place s d = .ok t) ↔ d.IsValid ∧ s.offer? d.id = none := by
  rw [SnapshotOrder.isValid_iff]
  constructor
  · rintro ⟨t, h⟩
    obtain ⟨hid, hnone, offer, hoffer, _⟩ := place_eq_ok_iff.mp h
    exact ⟨⟨hid, offer, hoffer⟩, hnone⟩
  · rintro ⟨⟨hid, offer, hoffer⟩, hnone⟩
    exact ⟨_, place_eq_ok_iff.mpr ⟨hid, hnone, offer, hoffer, rfl⟩⟩

/-- The orders of a list can be put in place one after the other just if they are sound and none of
their ids is in use before. -/
theorem exists_foldlM_iff :
    (∃ t, orders.foldlM place s = .ok t) ↔
      Sound orders ∧ ∀ d ∈ orders, s.offer? d.id = none := by
  induction orders generalizing s with
  | nil => exact iff_of_true ⟨s, rfl⟩ ⟨⟨nofun, .nil⟩, nofun⟩
  | cons d rest ih =>
      rw [List.foldlM_cons, sound_cons_iff, List.forall_mem_cons]
      have hfree (placed : Sandbox) (hplace : place s d = .ok placed) (o : SnapshotOrder) :
          placed.offer? o.id = none ↔ d.id ≠ o.id ∧ s.offer? o.id = none := by
        obtain ⟨_, _, offer, _, rfl⟩ := place_eq_ok_iff.mp hplace
        exact offer?_insertAt_eq_none_iff
      constructor
      · rintro ⟨t, h⟩
        obtain ⟨placed, hplace, h⟩ := bind_eq_ok_iff.mp h
        obtain ⟨hvalid, hnone⟩ := exists_place_iff.mp ⟨placed, hplace⟩
        obtain ⟨hsound, hunused⟩ := ih.mp ⟨t, h⟩
        have hrest (o : SnapshotOrder) (ho : o ∈ rest) := (hfree placed hplace o).mp (hunused o ho)
        exact ⟨⟨hvalid, fun o ho => (hrest o ho).1, hsound⟩, hnone, fun o ho => (hrest o ho).2⟩
      · rintro ⟨⟨hvalid, hne, hsound⟩, hnone, hunused⟩
        obtain ⟨placed, hplace⟩ := exists_place_iff.mpr ⟨hvalid, hnone⟩
        obtain ⟨t, h⟩ := ih.mpr ⟨hsound, fun o ho =>
          (hfree placed hplace o).mpr ⟨hne o ho, hunused o ho⟩⟩
        exact ⟨t, bind_eq_ok_iff.mpr ⟨placed, hplace, h⟩⟩

/-- Of a list that is not taken in it is the first order that fails which is told of. -/
theorem foldlM_eq_error_iff :
    orders.foldlM place s = .error defect ↔
      ∃ before d after t, orders = before ++ d :: after ∧ before.foldlM place s = .ok t ∧
        place t d = .error defect := by
  constructor
  · intro h
    induction orders generalizing s with
    | nil => cases h
    | cons d rest ih =>
        rw [List.foldlM_cons] at h
        rcases bind_eq_error_iff.mp h with hplace | ⟨placed, hplace, h⟩
        · exact ⟨[], d, rest, s, rfl, rfl, hplace⟩
        · obtain ⟨before, o, after, t, rfl, hbefore, ho⟩ := ih h
          refine ⟨d :: before, o, after, t, rfl, ?_, ho⟩
          rw [List.foldlM_cons]
          exact bind_eq_ok_iff.mpr ⟨placed, hplace, hbefore⟩
  · rintro ⟨before, d, after, t, rfl, hbefore, hplace⟩
    rw [List.foldlM_append]
    refine bind_eq_error_iff.mpr (.inr ⟨t, hbefore, ?_⟩)
    rw [List.foldlM_cons]
    exact bind_eq_error_iff.mpr (.inl hplace)

theorem offer?_eq_none_of_foldlM (h : orders.foldlM place s = .ok t) (id : OrderId) :
    t.offer? id = none ↔ s.offer? id = none ∧ id ∉ orders.map (·.id) := by
  induction orders generalizing s with
  | nil =>
      cases h
      exact (and_iff_left List.not_mem_nil).symm
  | cons d rest ih =>
      rw [List.foldlM_cons] at h
      obtain ⟨placed, hplace, h⟩ := bind_eq_ok_iff.mp h
      obtain ⟨_, _, offer, _, rfl⟩ := place_eq_ok_iff.mp hplace
      rw [ih h, offer?_insertAt_eq_none_iff, List.map_cons, List.mem_cons, not_or, ne_comm]
      exact ⟨fun h => ⟨h.1.2, h.1.1, h.2⟩, fun h => ⟨⟨h.2.1, h.1⟩, h.2.2⟩⟩

/-- An order that cannot be put in place breaks a rule, and it is the first that it breaks which is
told of. -/
theorem place_eq_error_iff {taken : List OrderId}
    (htaken : ∀ id, s.offer? id = none ↔ id ∉ taken) :
    place s d = .error defect ↔ d.Breaks taken defect := by
  have hused : s.offers.contains d.id = true ↔ d.id ∈ taken :=
    contains_iff.trans (not_iff_comm.mpr (htaken d.id).symm)
  unfold place
  constructor
  · intro h
    split at h
    next hzero =>
      cases h
      exact .zeroId hzero
    next hid =>
      split at h
      next hcontains =>
        cases h
        exact .duplicate hid (hused.mp hcontains)
      next hnew =>
        rcases bind_eq_error_iff.mp h with hoffer | ⟨offer, _, h⟩
        · exact .amount hid (mt hused.mpr hnew) (SnapshotOrder.offer_eq_error_iff.mp hoffer)
        · cases h
  · intro h
    cases h with
    | zeroId hzero => exact if_pos hzero
    | duplicate hid h => rw [if_neg hid, if_pos (hused.mpr h)]
    | amount hid hnew h =>
        rw [if_neg hid, if_neg (mt hused.mp hnew), SnapshotOrder.offer_eq_error_iff.mpr h]
        rfl

end

end Sandbox

namespace Snapshot

variable {s : Snapshot} {start : UInt64} {m m' : Sandbox}

def bare (s : Snapshot) (start : UInt64) : Sandbox :=
  { Sandbox.new s.address s.kind s.sender (s.now.getD start) with
    closeTime := s.closeTime.getD 0xffffffffffffffff
    buyEnabled := s.buyEnabled
    matchingEnabled := s.matchingEnabled
    whitelist := Std.ExtTreeSet.ofList s.whitelist }

theorem sandbox_eq (s : Snapshot) (start : UInt64) :
    s.sandbox start = (·.reserveIds s.lastOfferId) <$> s.orders.foldlM place (s.bare start) :=
  bind_pure_comp ..

theorem offer?_bare (s : Snapshot) (start : UInt64) (id : OrderId) :
    (s.bare start).offer? id = none := by
  simp [bare, Sandbox.new, Sandbox.offer?]

theorem exists_sandbox_iff : (∃ m, s.sandbox start = .ok m) ↔ Sound s.orders := by
  have hfolds : (∃ t, s.orders.foldlM place (s.bare start) = .ok t) ↔ Sound s.orders :=
    Sandbox.exists_foldlM_iff.trans (and_iff_left fun d _ => s.offer?_bare start d.id)
  rw [sandbox_eq, ← hfolds]
  cases s.orders.foldlM place (s.bare start) with
  | error defect => exact iff_of_false nofun nofun
  | ok t => exact iff_of_true ⟨_, rfl⟩ ⟨t, rfl⟩

theorem sandbox_eq_error_iff {defect : Defect} :
    s.sandbox start = .error defect ↔
      ∃ before d after, s.orders = before ++ d :: after ∧ Sound before ∧
        d.Breaks (before.map (·.id)) defect := by
  have hfails : s.sandbox start = .error defect ↔
      s.orders.foldlM place (s.bare start) = .error defect := by
    rw [sandbox_eq]
    cases s.orders.foldlM place (s.bare start) with
    | error => exact Iff.rfl
    | ok => exact iff_of_false nofun nofun
  have htaken {before : List SnapshotOrder} {t : Sandbox}
      (h : before.foldlM place (s.bare start) = .ok t) (id : OrderId) :
      t.offer? id = none ↔ id ∉ before.map (·.id) :=
    (Sandbox.offer?_eq_none_of_foldlM h id).trans (and_iff_right (s.offer?_bare start id))
  rw [hfails, Sandbox.foldlM_eq_error_iff]
  constructor
  · rintro ⟨before, d, after, t, horders, hbefore, hplace⟩
    have hsound := (Sandbox.exists_foldlM_iff.mp ⟨t, hbefore⟩).1
    exact ⟨before, d, after, horders, hsound,
      (Sandbox.place_eq_error_iff (htaken hbefore)).mp hplace⟩
  · rintro ⟨before, d, after, horders, hsound, hbreaks⟩
    obtain ⟨t, hbefore⟩ := Sandbox.exists_foldlM_iff.mpr
      ⟨hsound, fun d _ => s.offer?_bare start d.id⟩
    exact ⟨before, d, after, t, horders, hbefore,
      (Sandbox.place_eq_error_iff (htaken hbefore)).mpr hbreaks⟩

theorem frame_of_sandbox (h : s.sandbox start = .ok m) :
    m = { s.bare start with offers := m.offers, lastId := m.lastId } := by
  rw [sandbox_eq] at h
  cases hfold : s.orders.foldlM place (s.bare start) with
  | error defect =>
      rw [hfold] at h
      cases h
  | ok t =>
      rw [hfold] at h
      cases h
      exact congrArg (·.reserveIds s.lastOfferId) (Sandbox.frame_of_foldlM hfold)

theorem holds_of_sandbox (h : s.sandbox start = .ok m) : s.Holds start m := by
  obtain ⟨hmarket, _, hlast, described, hdescribes, _, hshows⟩ := Sandbox.shows_of_snapshot h
  have hframe := frame_of_sandbox h
  have hwhitelist : m.whitelist = .ofList s.whitelist := congrArg Sandbox.whitelist hframe
  refine ⟨fun id offer => ?_, hlast, fun pair => ?_, ?_⟩
  · rw [← Sandbox.shows_order_iff, hshows, hmarket, SnapshotOrder.mem_described_iff hdescribes]
  · rw [hwhitelist, Std.ExtTreeSet.mem_ofList, List.contains_iff_mem]
  · rw [hwhitelist]
    exact hframe

theorem Holds.unique (h : s.Holds start m) (h' : s.Holds start m') : m = m' := by
  have hoffers : m.offers = m'.offers := by
    refine Std.ExtTreeMap.ext_getElem? fun id => Option.ext fun offer => ?_
    exact (h.offers id offer).trans (h'.offers id offer).symm
  have hlast : m.lastId = m'.lastId :=
    UInt64.toNat_inj.mp (Option.some.inj (h.lastId.symm.trans h'.lastId))
  have hwhitelist : m.whitelist = m'.whitelist :=
    Std.ExtTreeSet.ext_mem fun pair => (h.whitelist pair).trans (h'.whitelist pair).symm
  rw [h.frame, h'.frame, hoffers, hlast, hwhitelist]

theorem Holds.of_perm {orders : List SnapshotOrder} {whitelist : List TokenPair}
    (horders : orders.Perm s.orders) (hwhitelist : whitelist.Perm s.whitelist)
    (h : s.Holds start m) : { s with orders, whitelist }.Holds start m := by
  have hids : (s.lastOfferId.toNat :: orders.map (·.id.toNat)).Perm
      (s.lastOfferId.toNat :: s.orders.map (·.id.toNat)) := (horders.map _).cons _
  obtain ⟨hmem, hle⟩ := List.max?_eq_some_iff.mp h.lastId
  refine ⟨fun id offer => (h.offers id offer).trans ?_, ?_, fun pair =>
    (h.whitelist pair).trans hwhitelist.mem_iff.symm, h.frame⟩
  · exact exists_congr fun d => and_congr_left fun _ => horders.mem_iff.symm
  · exact List.max?_eq_some_iff.mpr ⟨hids.mem_iff.mpr hmem, fun n hn => hle n (hids.mem_iff.mp hn)⟩

/-- A snapshot is taken in just if its orders are sound, and the market then has what the snapshot
says and nothing else. Otherwise the first order that breaks a rule is told of. -/
theorem sandbox_admits (s : Snapshot) (start : UInt64) :
    ((∃ m, s.sandbox start = .ok m) ↔ Sound s.orders) ∧
    (∀ m, s.sandbox start = .ok m ↔ Sound s.orders ∧ s.Holds start m) ∧
    (∀ defect, s.sandbox start = .error defect ↔
      ∃ before d after, s.orders = before ++ d :: after ∧ Sound before ∧
        d.Breaks (before.map (·.id)) defect) ∧
    ∀ orders whitelist, orders.Perm s.orders → whitelist.Perm s.whitelist →
      ∀ m, { s with orders, whitelist }.sandbox start = .ok m ↔ s.sandbox start = .ok m := by
  have hok (s : Snapshot) (m : Sandbox) :
      s.sandbox start = .ok m ↔ Sound s.orders ∧ s.Holds start m := by
    constructor
    · intro h
      exact ⟨exists_sandbox_iff.mp ⟨m, h⟩, holds_of_sandbox h⟩
    · rintro ⟨hsound, hholds⟩
      obtain ⟨m', h⟩ := exists_sandbox_iff.mpr hsound
      rwa [hholds.unique (holds_of_sandbox h)]
  refine ⟨exists_sandbox_iff, hok s, fun defect => sandbox_eq_error_iff, ?_⟩
  intro orders whitelist horders hwhitelist m
  rw [hok, hok]
  constructor
  · rintro ⟨hsound, hholds⟩
    exact ⟨hsound.of_perm horders,
      Holds.of_perm (s := { s with orders, whitelist }) horders.symm hwhitelist.symm hholds⟩
  · rintro ⟨hsound, hholds⟩
    exact ⟨hsound.of_perm horders.symm, hholds.of_perm horders hwhitelist⟩

def trialOrders : Snapshot where
  address := .ofNat 20 1
  kind := .matching
  sender := .zero
  lastOfferId := 5
  orders :=
    [{ id := 7, owner := .ofNat 20 2, payToken := .ofNat 20 3, payAmount := "3",
       buyToken := .ofNat 20 4, buyAmount := "1.5", timestamp := 0 },
     { id := 4, owner := .ofNat 20 2, payToken := .ofNat 20 3, payAmount := "2",
       buyToken := .ofNat 20 4, buyAmount := "5", timestamp := 9 }]
  now := some 6
  closeTime := none
  buyEnabled := true
  matchingEnabled := false
  whitelist := [⟨.ofNat 20 3, .ofNat 20 4⟩]

theorem sound_trialOrders : Sound trialOrders.orders := by
  refine ⟨?_, by decide⟩
  simp only [trialOrders, List.forall_mem_cons]
  refine ⟨⟨by decide, _, _, rfl, rfl, ?_, ?_⟩, ⟨by decide, _, _, rfl, rfl, ?_, ?_⟩, nofun⟩
  all_goals decide +kernel

theorem sandbox_admits_of_trial :
    let again := { trialOrders with orders := trialOrders.orders ++ trialOrders.orders }
    let other := { trialOrders with orders := trialOrders.orders.reverse }
    ∃ m, trialOrders.sandbox 0 = .ok m ∧ m.lastId.toNat = 7 ∧ m.now = 6 ∧
      other.sandbox 0 = .ok m ∧ again.sandbox 0 = .error (.duplicate 7) := by
  intro again other
  obtain ⟨hadmits, hholds, _, hperm⟩ := sandbox_admits trialOrders 0
  obtain ⟨m, hm⟩ := hadmits.mpr sound_trialOrders
  obtain ⟨_, hlast, _, hframe⟩ := ((hholds m).mp hm).2
  have hother : other.sandbox 0 = .ok m :=
    (hperm _ _ (List.reverse_perm trialOrders.orders) (.refl _) m).mpr hm
  have hagain : again.sandbox 0 = .error (.duplicate 7) :=
    ((sandbox_admits again 0).2.2.1 _).mpr ⟨trialOrders.orders, _, _, rfl, sound_trialOrders,
      .duplicate (by decide) (by decide)⟩
  exact ⟨m, hm, (Option.some.inj hlast).symm, congrArg Sandbox.now hframe, hother, hagain⟩

end Snapshot

end Barter
