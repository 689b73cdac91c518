import Barter.CommandLine.Program
import Barter.Proofs.Amount.Reading
import Barter.Proofs.Client.Making
import Barter.Proofs.Client.Mirror
import Barter.Proofs.Hint
import Barter.Proofs.Json.Market
import Barter.Proofs.Sandbox.Loading

namespace Barter

open Client

def Terms.flooredPrice (t : Terms) : Nat :=
  t.payAmount.raw.toNat * Wad.one / t.buyAmount.raw.toNat

structure Terms.IsPriced (t : Terms) : Prop where
  pay_pos : 0 < t.payAmount.raw.toNat
  buy_pos : 0 < t.buyAmount.raw.toNat
  fits : t.payAmount.raw.toNat * Wad.one < Word.size

namespace Terms.IsPriced

theorem price_eq {t : Terms} (h : t.IsPriced) :
    ∃ price, t.price = .ok price ∧ price.raw.toNat = t.flooredPrice := by
  have hpositive := not_hasZero_iff.mpr ⟨h.pay_pos, h.buy_pos⟩
  rcases price_cases hpositive with ⟨hlarge, _⟩ | ⟨price, hprice, hhas⟩
  · exact absurd h.fits (Nat.not_lt.mpr hlarge)
  · exact ⟨price, hprice, hhas.quotient⟩

theorem sellToBuyPrice_eq {o : Order} (h : o.toTerms.IsPriced) :
    o.sellToBuyPrice.raw.toNat = o.flooredPrice :=
  Order.sellToBuyPrice_of_fits h.buy_pos h.fits

end Terms.IsPriced

namespace SnapshotOrder.Describes

variable {market : Address} {d : SnapshotOrder} {o : Order}

theorem pair_eq (h : d.Describes market o) : o.pair = ⟨d.payToken, d.buyToken⟩ := by
  rw [Terms.pair, h.payToken_eq, h.buyToken_eq]

theorem flooredPrice_eq (h : d.Describes market o) (pay buy : Wad)
    (hpay : Wad.ofText d.payAmount = .ok pay) (hbuy : Wad.ofText d.buyAmount = .ok buy) :
    o.flooredPrice = pay.raw.toNat * Wad.one / buy.raw.toNat := by
  rw [Terms.flooredPrice, Except.ok.inj (h.payAmount_eq.symm.trans hpay),
    Except.ok.inj (h.buyAmount_eq.symm.trans hbuy)]

end SnapshotOrder.Describes

namespace CommandLine

/-- What a run shows depends on one file only. -/
theorem run_of_file (words : List String) (env : Environment) (settings : Option String)
    (read? : String → Option String) (start : UInt64) :
    run words env settings read? start =
      run words env settings (fun _ => (file? words env settings).bind read?) start := by
  unfold run file?
  cases plan words (env.loadText (settings.getD "")) <;> rfl

/-- The line tells what the order is and at which price it sells. -/
def Tells (o : Order) (line : String) : Prop :=
  ∃ price : Wad, price.raw.toNat = o.flooredPrice ∧
    let sold := s!"{o.payAmount.text} of {o.payToken.checksum}"
    let wanted := s!"{o.buyAmount.text} of {o.buyToken.checksum}"
    let id := Text.column 6 o.id.toNat
    line = s!"#{id} maker {o.maker.checksum} sells {sold} for {wanted} @ {price.text}"

theorem tells_orderLine {o : Order} (h : o.toTerms.IsPriced) : Tells o (orderLine o) :=
  ⟨o.sellToBuyPrice, h.sellToBuyPrice_eq, rfl⟩

section

variable {snapshot : Snapshot} {start : UInt64} {market : Sandbox}
  (hopen : snapshot.sandbox start = .ok market)

include hopen

theorem mirrors_of_snapshot : Mirrors snapshot.address ⟨∅, market⟩ := by
  obtain ⟨hmarket, _⟩ := Sandbox.shows_of_snapshot hopen
  have hwell : market.WellFormed := (Sandbox.Opens.snapshot snapshot start hopen).wellFormed
  exact ⟨hmarket ▸ coherent_empty hwell.issued, hwell⟩

/-- A client of the market that was just opened is shown what the snapshot describes. -/
theorem orders_of_snapshot : ∃ described listed w,
    List.Forall₂ (SnapshotOrder.Describes snapshot.address) snapshot.orders described ∧
      listed.Perm described ∧ listed.Pairwise (·.id < ·.id) ∧
      (∀ o ∈ described, o.toTerms.IsPriced ∧ o.id ≠ 0) ∧
      orders Sandbox.ledger snapshot.address ⟨∅, market⟩ = (.ok listed, w) := by
  obtain ⟨_, _, _, described, hdescribes, hdistinct, hshows⟩ := Sandbox.shows_of_snapshot hopen
  have hmirrors := mirrors_of_snapshot hopen
  have hsize : 1 + market.lastId.toNat ≤ UInt64.size := Nat.add_comm 1 _ ▸ market.lastId.toNat_lt
  have hsorted := market.ordersIn_pairwise hsize
  refine ⟨described, _, _, hdescribes, ?_, hsorted, fun o ho => ?_, hmirrors.orders_eq.1⟩
  · refine (List.perm_ext_iff_of_nodup ?_ ?_).mpr fun o => ?_
    · exact hsorted.imp fun hlt heq => UInt64.ne_of_lt hlt (congrArg Order.id heq)
    · exact hdistinct.imp fun hne heq => hne (congrArg Order.id heq)
    · exact hmirrors.wellFormed.mem_ordersIn.trans (hshows o)
  · obtain ⟨offer, hoffer, hshown⟩ := (hshows o).mpr ho
    obtain ⟨hpay, hbuy⟩ := hmirrors.wellFormed.positive o.id offer hoffer
    have hone := hmirrors.wellFormed.one_le o.id offer hoffer
    obtain ⟨d, _, hd⟩ := SnapshotOrder.exists_describes hdescribes ho
    refine ⟨⟨hshown ▸ hpay, hshown ▸ hbuy, Wad.scaled_lt_of_ofText hd.payAmount_eq⟩, ?_⟩
    intro hzero
    rw [hzero] at hone
    exact absurd hone (by decide)

end

/-- The estimate comes to the same whatever the order of the list, and by the prices rounded down.
-/
theorem position_among {listed described : List Order} {terms : Terms} {price : Wad}
    (hperm : listed.Perm described) (hpriced : ∀ o ∈ described, o.toTerms.IsPriced ∧ o.id ≠ 0)
    (hprice : price.raw.toNat = terms.flooredPrice) :
    let hint := Hint.position listed terms.pair price
    let isRival (o : Order) := o.pair = terms.pair ∧ terms.flooredPrice ≤ o.flooredPrice
    (hint = 0 ↔ ∀ o ∈ described, ¬ isRival o) ∧
      (hint ≠ 0 → ∃ o ∈ described, isRival o ∧ hint = o.id ∧
        ∀ other ∈ described, isRival other → o.flooredPrice < other.flooredPrice ∨
          o.flooredPrice = other.flooredPrice ∧ o.id ≤ other.id) := by
  intro hint isRival
  have hfloored {o : Order} (ho : o ∈ described) : o.sellToBuyPrice.raw.toNat = o.flooredPrice :=
    (hpriced o ho).1.sellToBuyPrice_eq
  have hrival {o : Order} (ho : o ∈ described) : o.IsRival terms.pair price ↔ isRival o := by
    have hle : price ≤ o.sellToBuyPrice ↔ terms.flooredPrice ≤ o.flooredPrice := by
      rw [← hprice, ← hfloored ho]
      rfl
    exact ⟨fun h => ⟨h.pair_eq, hle.mp h.price_le⟩, fun h => ⟨h.1, hle.mpr h.2⟩⟩
  rcases Hint.position_cases listed terms.pair price with
    ⟨hzero, hnone⟩ | ⟨o, ⟨hlisted, ho, hleast⟩, hid⟩
  · refine ⟨iff_of_true hzero fun o ho h => ?_, fun h => absurd hzero h⟩
    exact hnone o (hperm.mem_iff.mpr ho) ((hrival ho).mpr h)
  · have hmem := hperm.mem_iff.mp hlisted
    have hne : hint ≠ 0 := fun h => (hpriced o hmem).2 (hid.symm.trans h)
    refine ⟨iff_of_false hne fun h => h o hmem ((hrival hmem).mp ho), fun _ =>
      ⟨o, hmem, (hrival hmem).mp ho, hid, fun other hother h => ?_⟩⟩
    rw [← hfloored hmem, ← hfloored hother]
    rcases hleast other (hperm.mem_iff.mpr hother) ((hrival hother).mpr h) with hlt | ⟨heq, hle⟩
    · exact .inl hlt
    · exact .inr ⟨congrArg (·.raw.toNat) heq, hle⟩

/-- None of the three tasks fails on a snapshot from which a market can be opened, and each tells
what the snapshot itself describes. -/
theorem tasks_answer_snapshot (text : String) (snapshot : Snapshot) (start : UInt64)
    (market : Sandbox) (hread : Snapshot.ofText text = .ok snapshot)
    (hopen : snapshot.sandbox start = .ok market) :
    ∃ described : List Order,
      List.Forall₂ (SnapshotOrder.Describes snapshot.address) snapshot.orders described ∧
      (∃ listed lines, listed.Perm described ∧ listed.Pairwise (·.id < ·.id) ∧
        List.Forall₂ Tells listed lines ∧
        let count := snapshot.orders.length
        Task.orders.run start (some text) =
          .ok (s!"{name snapshot.address snapshot.kind}: {count} active orders" :: lines)) ∧
      (∃ last, (snapshot.lastOfferId.toNat :: snapshot.orders.map (·.id.toNat)).max? = some last ∧
        Task.lastId.run start (some text) = .ok [toString last]) ∧
      ∀ terms payText buyText, Wad.ofText payText = .ok terms.payAmount →
        Wad.ofText buyText = .ok terms.buyAmount → 0 < terms.payAmount.raw.toNat →
        0 < terms.buyAmount.raw.toNat →
        ∃ (price : Wad) (hint : OrderId), price.raw.toNat = terms.flooredPrice ∧
          (position Sandbox.ledger snapshot.address terms ⟨∅, market⟩).1 = .ok hint ∧
          (Task.position terms).run start (some text) =
            .ok [if hint = 0 then s!"0 (no order at or above {price.text}; the contract searches)"
              else toString hint.toNat] ∧
          let isRival (o : Order) := o.pair = terms.pair ∧ terms.flooredPrice ≤ o.flooredPrice
          (hint = 0 ↔ ∀ o ∈ described, ¬ isRival o) ∧
          (hint ≠ 0 → ∃ o ∈ described, isRival o ∧ hint = o.id ∧
            ∀ other ∈ described, isRival other → o.flooredPrice < other.flooredPrice ∨
              o.flooredPrice = other.flooredPrice ∧ o.id ≤ other.id) := by
  obtain ⟨described, listed, w, hdescribes, hperm, hsorted, hpriced, horders⟩ :=
    orders_of_snapshot hopen
  obtain ⟨hmarket, hkind, hlast, _⟩ := Sandbox.shows_of_snapshot hopen
  have hopened : openMarket start (some text) = .ok market := by
    rw [openMarket, hread]
    exact congrArg (Except.mapError Problem.defect) hopen
  have hlisted : onMarket market orders = .ok listed := by
    rw [onMarket, hmarket, horders]
    rfl
  have hcount : snapshot.orders.length = listed.length :=
    hdescribes.length_eq.trans hperm.length_eq.symm
  refine ⟨described, hdescribes, ⟨listed, listed.map orderLine, hperm, hsorted, ?_, ?_⟩,
    ⟨_, hlast, ?_⟩, ?_⟩
  · refine List.forall₂_map_right_iff.mpr (List.forall₂_same.mpr fun o ho => ?_)
    exact tells_orderLine (hpriced o (hperm.mem_iff.mp ho)).1
  · simp only [Task.run, hopened, listOrders, bind, Except.bind, hlisted, hmarket, hkind, hcount]
    rfl
  · have hlastId : onMarket market lastOrderId = .ok market.lastId := by
      rw [onMarket, hmarket, (mirrors_of_snapshot hopen).lastOrderId_eq]
      rfl
    simp only [Task.run, hopened, showLastId, bind, Except.bind, hlastId]
    rfl
  · intro terms payText buyText hpay _ hpayPos hbuyPos
    obtain ⟨price, hprice, hfloored⟩ :=
      Terms.IsPriced.price_eq ⟨hpayPos, hbuyPos, Wad.scaled_lt_of_ofText hpay⟩
    refine ⟨price, Hint.position listed terms.pair price, hfloored, ?_, ?_, ?_⟩
    · rw [position_of_orders hprice horders]
    · simp only [Task.run, hprice, Except.mapError, hopened, showPosition, bind, Except.bind, hlisted]
      split <;> rfl
    · exact position_among hperm hpriced hfloored

def trialSnapshot : Snapshot where
  address := .ofNat 20 1
  kind := .matching
  sender := .zero
  lastOfferId := 9
  orders :=
    [{ id := 7, owner := .ofNat 20 2, payToken := .ofNat 20 3, payAmount := "3",
       buyToken := .ofNat 20 4, buyAmount := "1.5", timestamp := 0 },
     { id := 4, owner := .ofNat 20 2, payToken := .ofNat 20 3, payAmount := "1000",
       buyToken := .ofNat 20 4, buyAmount := "500", timestamp := 0 }]
  now := none
  closeTime := some 100
  buyEnabled := true
  matchingEnabled := true
  whitelist := [⟨.ofNat 20 3, .ofNat 20 4⟩]

def trialTerms : Terms :=
  ⟨.ofNat 20 3, .ofNumber 2, .ofNat 20 4, .ofNumber 1⟩

theorem trial_orders_as_dear {market : Address} {d : SnapshotOrder} {o : Order}
    (hd : d ∈ trialSnapshot.orders) (h : d.Describes market o) :
    o.pair = trialTerms.pair ∧ o.flooredPrice = trialTerms.flooredPrice := by
  rcases List.mem_pair.mp hd with rfl | rfl
  · refine ⟨h.pair_eq, (h.flooredPrice_eq (.ofNumber 3) ⟨.ofUInt64 1_500_000_000_000_000_000⟩
      ?_ ?_).trans ?_⟩
    all_goals decide +kernel
  · refine ⟨h.pair_eq, (h.flooredPrice_eq (.ofNumber 1000) (.ofNumber 500) ?_ ?_).trans ?_⟩
    all_goals decide +kernel

theorem tasks_answer_snapshot_of_trial :
    ∃ text market earlier later head line line', Snapshot.ofText text = .ok trialSnapshot ∧
      trialSnapshot.sandbox 50 = .ok market ∧ earlier.id = 4 ∧ later.id = 7 ∧
      Tells earlier line ∧ Tells later line' ∧
      Task.orders.run 50 (some text) = .ok [head, line, line'] ∧
      Task.lastId.run 50 (some text) = .ok ["9"] ∧
      (Task.position trialTerms).run 50 (some text) = .ok ["4"] := by
  have hread := Snapshot.ofText_write trialSnapshot
  have hok : (trialSnapshot.sandbox 50).isOk = true := by decide +kernel
  obtain ⟨market, hopen⟩ : ∃ market, trialSnapshot.sandbox 50 = .ok market := by
    cases hopen : trialSnapshot.sandbox 50 with
    | error defect =>
        rw [hopen] at hok
        cases hok
    | ok market => exact ⟨market, rfl⟩
  obtain ⟨described, hdescribes, ⟨listed, lines, hperm, hsorted, htells, horders⟩,
    ⟨last, hmax, hlast⟩, hposition⟩ := tasks_answer_snapshot _ trialSnapshot 50 market hread hopen
  obtain ⟨price, hint, _, _, hshown, hzero, hleast⟩ :=
    hposition trialTerms "2" "1" (by rfl) (by rfl) (by decide +kernel) (by decide +kernel)
  have hnine : (trialSnapshot.lastOfferId.toNat :: trialSnapshot.orders.map (·.id.toNat)).max? =
    some 9 := by decide
  obtain rfl := Option.some.inj (hmax.symm.trans hnine)
  simp only [trialSnapshot] at hdescribes
  rcases hdescribes with _ | ⟨hlater, _ | ⟨hearlier, _ | _⟩⟩
  next later earlier =>
  have hlisted : listed = [earlier, later] := by
    refine List.Perm.eq_of_pairwise (fun _ _ _ _ hlt hgt => ?_) hsorted ?_ (hperm.trans (.swap ..))
    · exact absurd hgt (UInt64.lt_asymm hlt)
    · simp [hlater.id_eq, hearlier.id_eq]
  subst hlisted
  rcases htells with _ | ⟨htell, _ | ⟨htell', _ | _⟩⟩
  next line line' =>
  obtain ⟨hpair, hdear⟩ := trial_orders_as_dear List.mem_cons_self hlater
  obtain ⟨hpair', hdear'⟩ := trial_orders_as_dear (List.mem_cons_of_mem _ List.mem_cons_self) hearlier
  have hfour : hint = 4 := by
    have hrival : hint ≠ 0 := fun h => hzero.mp h later List.mem_cons_self ⟨hpair, hdear.ge⟩
    obtain ⟨o, ho, _, hid, hother⟩ := hleast hrival
    rcases List.mem_pair.mp ho with rfl | rfl
    · have hlow := hother earlier (by simp) ⟨hpair', hdear'.ge⟩
      rw [hdear, hdear', hlater.id_eq, hearlier.id_eq] at hlow
      exact absurd hlow (by decide)
    · exact hid.trans hearlier.id_eq
  subst hfour
  exact ⟨_, market, earlier, later, _, line, line', hread, hopen, hearlier.id_eq, hlater.id_eq,
    htell, htell', horders, hlast, hshown⟩

end CommandLine

end Barter
