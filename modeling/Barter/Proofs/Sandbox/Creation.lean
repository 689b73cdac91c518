import Barter.Proofs.Sandbox.Freshness

namespace Barter

theorem Command.checkedIntent_make {terms : Terms} (h : terms.check = .ok ()) (market : Address) :
    (Command.make terms).checkedIntent market = .ok ((Command.make terms).intent market) := by
  simp only [checkedIntent, h]
  rfl

theorem Command.checkedIntent_offer {terms : Terms} (h : terms.check = .ok ()) (position : OrderId)
    (market : Address) :
    (Command.offer terms position).checkedIntent market =
      .ok ((Command.offer terms position).intent market) := by
  simp only [checkedIntent, h]
  rfl

namespace Sandbox

variable {s : Sandbox} {terms : Terms}

theorem isClosed_iff : s.isClosed = true ↔ s.kind ≠ .simple ∧ s.closeTime < s.now := by
  simp [isClosed, MarketKind.hasExpiry]

theorem admits_iff {pair : TokenPair} :
    s.admits pair = true ↔
      s.kind ≠ .matching ∨ s.whitelist.isEmpty = true ∨ pair ∈ s.whitelist ∨
        pair.swap ∈ s.whitelist := by
  simp [admits, MarketKind.isMatching, or_assoc]

theorem accepts_iff (hpay : 0 < terms.payAmount.raw.toNat) (hbuy : 0 < terms.buyAmount.raw.toNat) :
    s.Accepts terms ↔
      s.isClosed = false ∧ terms.payToken ≠ terms.buyToken ∧ s.admits terms.pair = true :=
  ⟨fun h => ⟨h.isOpen, h.tokens_ne, h.admitted⟩, fun h => ⟨h.1, hpay, hbuy, h.2.1, h.2.2⟩⟩

theorem mines_make_iff :
    s.Mines ((Command.make terms).intent s.market) ↔ s.started.Accepts terms := by
  rw [mines_intent_iff rfl]
  constructor
  · rintro ⟨effect, h⟩
    exact (create_eq_ok_iff.mp h).1
  · intro h
    exact ⟨_, create_eq_ok_iff.mpr ⟨h, rfl⟩⟩

theorem submit_make (h : s.started.Accepts terms) :
    (s.submit ((Command.make terms).intent s.market)).2 =
      (s.started.insert (s.offerOf terms)).mine
        [s.started.announce .make s.nextId (s.offerOf terms)] := by
  have hcreate : s.started.execute (.make terms) = .ok (s.started.insert (s.offerOf terms),
      [s.started.announce .make s.nextId (s.offerOf terms)]) := create_eq_ok_iff.mpr ⟨h, rfl⟩
  rw [submit_of_execute rfl hcreate]

theorem submit_offer_of_le (hkind : s.kind = .matching) {position : OrderId}
    (h : position ≤ s.lastId) :
    s.submit ((Command.offer terms position).intent s.market) =
      s.submit ((Command.make terms).intent s.market) := by
  have hfor : (Command.offer terms position).isFor s.kind = true := by
    rw [hkind]
    rfl
  have hsame : s.started.execute (.offer terms position) = s.started.execute (.make terms) :=
    if_neg (UInt64.not_lt.mpr h)
  rw [submit_intent hfor, submit_intent rfl, transact_ok, transact_ok, hsame]

theorem submit_offer_of_lt (hkind : s.kind = .matching) {position : OrderId}
    (h : s.lastId < position) :
    (s.submit ((Command.offer terms position).intent s.market)).1 =
      .ok ⟨s.nextHash, some (.error (.rejected (.unknownPosition position)))⟩ := by
  have hfor : (Command.offer terms position).isFor s.kind = true := by
    rw [hkind]
    rfl
  have hreject : s.started.execute (.offer terms position) =
      .error (reject (.unknownPosition position)) := if_pos h
  rw [submit_intent hfor, transact_ok, hreject]
  rfl

theorem cause_of_create {stop : Stop} (h : s.create terms = .error stop) :
    ∃ cause, stop = reject cause ∧ ∀ position, cause ≠ .unknownPosition position := by
  unfold create at h
  split at h
  · exact ⟨.closed, (Except.error.inj h).symm, nofun⟩
  · split at h
    · exact ⟨.zeroAmount, (Except.error.inj h).symm, nofun⟩
    · split at h
      · exact ⟨.sameToken, (Except.error.inj h).symm, nofun⟩
      · split at h
        · exact ⟨.notWhitelisted, (Except.error.inj h).symm, nofun⟩
        · cases h

theorem exists_pending_make (s : Sandbox) (terms : Terms) :
    ∃ pending, (s.submit ((Command.make terms).intent s.market)).1 = .ok pending ∧
      ∀ position,
        pending.wait ≠ .error (.transactionFailed (.rejected (.unknownPosition position))) := by
  rw [submit_intent rfl, transact_ok]
  cases hcreate : s.started.execute (.make terms) with
  | ok effect => exact ⟨_, rfl, nofun⟩
  | error stop =>
      obtain ⟨cause, rfl, hcause⟩ := cause_of_create hcreate
      refine ⟨_, rfl, fun position hwait => hcause position ?_⟩
      cases hwait
      rfl

/-- A matching market takes any offer in, and knows its position if that is an id that was used. -/
theorem exists_pending_offer (hkind : s.kind = .matching) (terms : Terms) (position : OrderId) :
    ∃ pending, (s.submit ((Command.offer terms position).intent s.market)).1 = .ok pending ∧
      (position ≤ s.lastId → ∀ other,
        pending.wait ≠ .error (.transactionFailed (.rejected (.unknownPosition other)))) := by
  by_cases hle : position ≤ s.lastId
  · obtain ⟨pending, hpending, hwait⟩ := s.exists_pending_make terms
    rw [submit_offer_of_le hkind hle]
    exact ⟨pending, hpending, fun _ => hwait⟩
  · rw [submit_offer_of_lt hkind (UInt64.not_le.mp hle)]
    exact ⟨_, rfl, fun h => absurd h hle⟩

/-- Just where the market accepts the terms is an order made, with the next id. Naming a position
makes no difference on a matching market, as long as it is an id that was used. -/
theorem make_end_to_end (s : Sandbox) (terms : Terms) (hpay : 0 < terms.payAmount.raw.toNat)
    (hbuy : 0 < terms.buyAmount.raw.toNat) (hids : s.lastId.toNat + 1 < UInt64.size) :
    let making := (Command.make terms).intent s.market
    let offering (position : OrderId) := (Command.offer terms position).intent s.market
    let after := (s.submit making).2
    (Command.make terms).checkedIntent s.market = .ok making ∧
    (∀ position, (Command.offer terms position).checkedIntent s.market = .ok (offering position)) ∧
    (s.Mines making ↔
      ¬ (s.kind ≠ .simple ∧ s.closeTime < s.now) ∧ terms.payToken ≠ terms.buyToken ∧
        (s.kind ≠ .matching ∨ s.whitelist.isEmpty = true ∨ terms.pair ∈ s.whitelist ∨
          terms.pair.swap ∈ s.whitelist)) ∧
    (s.Mines making →
      after.lastId.toNat = s.lastId.toNat + 1 ∧
      after.offer? after.lastId =
        some { terms with owner := s.sender, timestamp := s.now }) ∧
    (s.kind = .matching → ∀ position,
      (position ≤ s.lastId → s.submit (offering position) = s.submit making) ∧
      (s.lastId < position → (s.submit (offering position)).1 =
        .ok ⟨s.nextHash, some (.error (.rejected (.unknownPosition position)))⟩)) := by
  intro making offering after
  have hcheck := Terms.check_eq_ok_iff.mpr ⟨hpay, hbuy⟩
  refine ⟨Command.checkedIntent_make hcheck _, fun position =>
    Command.checkedIntent_offer hcheck position _, ?_, fun hmines => ?_, fun hkind position =>
    ⟨submit_offer_of_le hkind, submit_offer_of_lt hkind⟩⟩
  · rw [mines_make_iff, accepts_iff hpay hbuy, ← Bool.not_eq_true, isClosed_iff, admits_iff]
    rfl
  · have hafter : after = _ := submit_make (mines_make_iff.mp hmines)
    have hlast : after.lastId = s.nextId := by
      rw [hafter, mine_eq]
      rfl
    refine ⟨hlast ▸ nextId_toNat (Nat.ne_of_lt hids), ?_⟩
    rw [hlast, hafter, offer?_mine, offer?_insert]
    exact if_pos rfl

def trialMatching : Sandbox :=
  (Sandbox.new trial.market .matching trial.sender 0).allowPair trialTerms.pair.swap

theorem make_end_to_end_of_trial :
    let making := (Command.make trialTerms).intent trialMatching.market
    let offering (position : OrderId) :=
      (Command.offer trialTerms position).intent trialMatching.market
    trialMatching.Mines making ∧
      (trialMatching.submit making).2.offer? 1 = some (trialMatching.offerOf trialTerms) ∧
      trialMatching.submit (offering 0) = trialMatching.submit making ∧
      (trialMatching.submit (offering 1)).1 =
        .ok ⟨trialMatching.nextHash, some (.error (.rejected (.unknownPosition 1)))⟩ := by
  intro making offering
  obtain ⟨_, _, hmines, hmade, hoffers⟩ :=
    make_end_to_end trialMatching trialTerms (by decide) (by decide) (by decide)
  have hlisted : trialTerms.pair.swap ∈ trialMatching.whitelist := Std.ExtTreeSet.mem_insert_self
  have hmined : trialMatching.Mines making :=
    hmines.mpr ⟨by decide, by decide, .inr (.inr (.inr hlisted))⟩
  obtain ⟨hlast, hoffer⟩ := hmade hmined
  rw [show (trialMatching.submit making).2.lastId = 1 from UInt64.toNat_inj.mp hlast] at hoffer
  exact ⟨hmined, hoffer, (hoffers rfl 0).1 (by decide), (hoffers rfl 1).2 (by decide)⟩

end Sandbox

end Barter
