import Barter.Proofs.Command
import Barter.Proofs.Sandbox.Run

namespace Barter.Sandbox

inductive Fails (s : Sandbox) (c : Command) : Stop → Prop
  | rejected (cause : Rejection) : Fails s c (reject cause)
  | trapped (id : OrderId) (quantity : Wad) (offer : Offer) (hc : c = .take id quantity)
      (h : s.offer? id = some offer) (hzero : offer.payAmount.raw.toNat = 0) :
      Fails s c (.trapped .fillByZero)

section

variable {s : Sandbox} {c : Command} {id : OrderId} {stop : Stop}

theorem eq_of_liveOffer_eq_error (h : s.liveOffer id = .error stop) :
    stop = reject (.inactive id) := by
  unfold liveOffer at h
  split at h
  · cases h
  · exact (Except.error.inj h).symm

theorem fails_of_create {terms : Terms} (h : s.create terms = .error stop) : s.Fails c stop := by
  unfold create at h
  split at h
  · cases h
    exact .rejected _
  · split at h
    · cases h
      exact .rejected _
    · split at h
      · cases h
        exact .rejected _
      · split at h
        · cases h
          exact .rejected _
        · cases h

theorem fails_of_priceOf {quantity : Wad} {offer : Offer} (hc : c = .take id quantity)
    (hoffer : s.offer? id = some offer) (h : priceOf offer quantity = .error stop) :
    s.Fails c stop := by
  unfold priceOf at h
  split at h
  · cases h
    exact .rejected _
  · split at h
    next hzero =>
      cases h
      exact .trapped id quantity offer hc hoffer (Wad.isZero_iff.mp hzero)
    · cases h

theorem fails_of_take {quantity : Wad} (hc : c = .take id quantity)
    (h : s.take id quantity = .error stop) : s.Fails c stop := by
  unfold take at h
  split at h
  · cases h
    exact .rejected _
  · rcases bind_eq_error_iff.mp h with hlive | ⟨offer, hlive, h⟩
    · rw [eq_of_liveOffer_eq_error hlive]
      exact .rejected _
    · rcases bind_eq_error_iff.mp h with hprice | ⟨given, _, h⟩
      · exact fails_of_priceOf hc (liveOffer_eq_ok_iff.mp hlive) hprice
      · split at h
        · cases h
          exact .rejected _
        · cases h

theorem fails_of_bump (h : s.bump id = .error stop) : s.Fails c stop := by
  rcases bind_eq_error_iff.mp h with hlive | ⟨offer, _, h⟩
  · rw [eq_of_liveOffer_eq_error hlive]
    exact .rejected _
  · cases h

theorem fails_of_kill (h : s.kill id = .error stop) : s.Fails c stop := by
  rcases bind_eq_error_iff.mp h with hlive | ⟨offer, _, h⟩
  · rw [eq_of_liveOffer_eq_error hlive]
    exact .rejected _
  · split at h
    · cases h
    · cases h
      exact .rejected _

theorem fails_of_execute (h : s.execute c = .error stop) : s.Fails c stop := by
  cases c with
  | make terms => exact fails_of_create h
  | offer terms position =>
      simp only [execute] at h
      split at h
      · cases h
        exact .rejected _
      · exact fails_of_create h
  | bump id => exact fails_of_bump h
  | take id quantity => exact fails_of_take rfl h
  | kill id => exact fails_of_kill h
  | setBuyEnabled on => cases h
  | setMatchingEnabled on => cases h
  | whitelist pair =>
      simp only [execute] at h
      split at h
      · cases h
        exact .rejected _
      · cases h

end

/-- How a market handles an intent. It turns away one for another contract, or of a method that it
does not have, and does nothing. Any other is the next transaction: it is rejected if its arguments
cannot be read or the market has a reason against the command, and it is mined otherwise. -/
inductive Handles (s : Sandbox) (intent : Intent) : Except Stop Pending → Sandbox → Prop
  | elsewhere (h : intent.contract ≠ s.market) :
      Handles s intent (.error (.fault (.transport (.noContract intent.contract)))) s
  | unknown (hhere : intent.contract = s.market) (h : ¬ s.kind.HasMethod intent.method) :
      Handles s intent (.error (.fault (.unknownMethod intent.method))) s
  | garbled (hhere : intent.contract = s.market) (hhas : s.kind.HasMethod intent.method)
      (cause : DecodeFault)
      (hread : Command.ofCall s.kind intent.method intent.args = .error (.decode cause)) :
      Handles s intent (.ok ⟨s.nextHash, some (.error (.decode cause))⟩) (s.started.mine [])
  | rejected (hhere : intent.contract = s.market) (hhas : s.kind.HasMethod intent.method)
      (c : Command) (hread : Command.ofCall s.kind intent.method intent.args = .ok c)
      (cause : Rejection) (h : s.started.execute c = .error (reject cause)) :
      Handles s intent (.ok ⟨s.nextHash, some (.error (.rejected cause))⟩) (s.started.mine [])
  | trapped (hhere : intent.contract = s.market) (hhas : s.kind.HasMethod intent.method)
      (id : OrderId) (quantity : Wad) (offer : Offer)
      (hread : Command.ofCall s.kind intent.method intent.args = .ok (.take id quantity))
      (h : s.offer? id = some offer) (hzero : offer.payAmount.raw.toNat = 0) :
      Handles s intent (.error (.trapped .fillByZero)) s.started
  | mined (hhere : intent.contract = s.market) (hhas : s.kind.HasMethod intent.method)
      (c : Command) (hread : Command.ofCall s.kind intent.method intent.args = .ok c)
      (after : Sandbox) (logs : List Log) (h : s.started.execute c = .ok (after, logs)) :
      Handles s intent (.ok ⟨s.nextHash, some (.ok ⟨s.nextHash, s.block, logs⟩)⟩) (after.mine logs)

theorem transact_garbled (s : Sandbox) (cause : Fault) :
    s.transact (.error cause) =
      (.ok ⟨s.nextHash, some (.error cause)⟩, s.started.mine []) :=
  rfl

theorem transact_ok (s : Sandbox) (c : Command) :
    s.transact (.ok c) =
      match s.started.execute c with
      | .ok (after, logs) =>
          (.ok ⟨s.nextHash, some (.ok ⟨s.nextHash, s.block, logs⟩)⟩, after.mine logs)
      | .error (.fault cause) => (.ok ⟨s.nextHash, some (.error cause)⟩, s.started.mine [])
      | .error (.trapped trap) => (.error (.trapped trap), s.started) :=
  rfl

/-- A market reads what was put into words for it, and does it as the next transaction. -/
theorem submit_intent {s : Sandbox} {c : Command} (h : c.isFor s.kind = true) :
    s.submit (c.intent s.market) = s.transact (.ok c) := by
  have hread : Command.ofCall s.kind c.method c.args = .ok c := Command.ofCall_args h
  rw [submit, if_neg (fun hne => hne rfl)]
  simp only [Command.intent, hread]

theorem submit_of_execute {s after : Sandbox} {c : Command} {logs : List Log}
    (hfor : c.isFor s.kind = true) (h : s.started.execute c = .ok (after, logs)) :
    s.submit (c.intent s.market) =
      (.ok ⟨s.nextHash, some (.ok ⟨s.nextHash, s.block, logs⟩)⟩, after.mine logs) := by
  rw [submit_intent hfor, transact_ok, h]

def Mines (s : Sandbox) (intent : Intent) : Prop :=
  ∃ hash receipt, (s.submit intent).1 = .ok ⟨hash, some (.ok receipt)⟩

theorem mines_intent_iff {s : Sandbox} {c : Command} (h : c.isFor s.kind = true) :
    s.Mines (c.intent s.market) ↔ ∃ effect, s.started.execute c = .ok effect := by
  rw [Mines, submit_intent h, transact_ok]
  rcases s.started.execute c with (cause | trap) | ⟨after, logs⟩
  · refine iff_of_false ?_ nofun
    rintro ⟨hash, receipt, hmined⟩
    cases congrArg Pending.outcome (Except.ok.inj hmined)
  · refine iff_of_false ?_ nofun
    rintro ⟨hash, receipt, hmined⟩
    cases hmined
  · exact iff_of_true ⟨s.nextHash, ⟨s.nextHash, s.block, logs⟩, rfl⟩ ⟨(after, logs), rfl⟩

theorem submit_handles (s : Sandbox) (intent : Intent) :
    s.Handles intent (s.submit intent).1 (s.submit intent).2 := by
  unfold submit
  split
  next h => exact .elsewhere h
  next h =>
    have hhere : intent.contract = s.market := Decidable.not_not.mp h
    have hreads := Command.ofCall_reads s.kind intent.method intent.args
    generalize hread : Command.ofCall s.kind intent.method intent.args = read at hreads
    cases hreads with
    | unknown hhas => exact .unknown hhere hhas
    | garbled hhas cause =>
        simp only [transact_garbled]
        exact .garbled hhere hhas cause hread
    | known c hhas =>
        simp only [transact_ok]
        cases hexec : s.started.execute c with
        | ok effect => exact .mined hhere hhas c hread effect.1 effect.2 hexec
        | error stop =>
            cases fails_of_execute hexec with
            | rejected cause => exact .rejected hhere hhas c hread cause hexec
            | trapped id quantity offer hc hoffer hzero =>
                subst hc
                exact .trapped hhere hhas id quantity offer hread hoffer hzero

namespace Handles

variable {s after : Sandbox} {intent : Intent} {result : Except Stop Pending}

theorem hasMethod_of_ok {pending : Pending} (h : s.Handles intent result after)
    (hok : result = .ok pending) :
    intent.contract = s.market ∧ s.kind.HasMethod intent.method := by
  cases h with
  | elsewhere | unknown | trapped => cases hok
  | garbled hhere hhas | rejected hhere hhas | mined hhere hhas => exact ⟨hhere, hhas⟩

/-- What is turned away is not for this market; a trap needs an order that has nothing on sale. -/
theorem eq_of_error {stop : Stop} (h : s.Handles intent result after)
    (herror : result = .error stop)
    (hpay : ∀ id offer, s.offer? id = some offer → 0 < offer.payAmount.raw.toNat) :
    after = s ∧ (intent.contract ≠ s.market ∨ ¬ s.kind.HasMethod intent.method) := by
  cases h with
  | elsewhere hcontract => exact ⟨rfl, .inl hcontract⟩
  | unknown _ hhas => exact ⟨rfl, .inr hhas⟩
  | trapped _ _ id _ offer _ hoffer hzero =>
      have hpos := hpay id offer hoffer
      omega
  | garbled | rejected | mined => cases herror

theorem eq_of_wait_eq_error {pending : Pending} {failure : Failure}
    (h : s.Handles intent result after) (hok : result = .ok pending)
    (hwait : pending.wait = .error failure) :
    ((∃ cause, failure = .transactionFailed (.rejected cause)) ∨
      ∃ cause, failure = .transactionFailed (.decode cause)) ∧
    after = { s with nonce := s.nonce + 1, block := s.block + 1 } := by
  cases h with
  | elsewhere | unknown | trapped => cases hok
  | garbled _ _ cause =>
      obtain rfl := Except.ok.inj hok
      exact ⟨.inr ⟨cause, (Except.error.inj hwait).symm⟩, rfl⟩
  | rejected _ _ _ _ cause =>
      obtain rfl := Except.ok.inj hok
      exact ⟨.inl ⟨cause, (Except.error.inj hwait).symm⟩, rfl⟩
  | mined =>
      obtain rfl := Except.ok.inj hok
      cases hwait

theorem mined_of_ok {hash : Hash} {receipt : Receipt} (h : s.Handles intent result after)
    (hok : result = .ok ⟨hash, some (.ok receipt)⟩) :
    ∃ c done, Command.ofCall s.kind intent.method intent.args = .ok c ∧
      s.started.execute c = .ok (done, receipt.logs) ∧ after = done.mine receipt.logs := by
  have outcome_eq {p q : Pending} (h : (.ok p : Except Stop Pending) = .ok q) :
      p.outcome = q.outcome := congrArg Pending.outcome (Except.ok.inj h)
  cases h with
  | elsewhere | unknown | trapped => cases hok
  | garbled | rejected => cases outcome_eq hok
  | mined _ _ c hread done logs hexec =>
      obtain rfl := Except.ok.inj (Option.some.inj (outcome_eq hok))
      exact ⟨c, done, hread, hexec, rfl⟩

theorem receipt_of_ok {hash : Hash} {receipt : Receipt} (h : s.Handles intent result after)
    (hok : result = .ok ⟨hash, some (.ok receipt)⟩) :
    hash = s.nextHash ∧ receipt.transaction = s.nextHash ∧ receipt.block = s.block := by
  cases h with
  | elsewhere | unknown | trapped => cases hok
  | garbled | rejected => cases congrArg Pending.outcome (Except.ok.inj hok)
  | mined =>
      obtain rfl := congrArg Pending.transaction (Except.ok.inj hok)
      obtain rfl := Except.ok.inj (Option.some.inj (congrArg Pending.outcome (Except.ok.inj hok)))
      exact ⟨rfl, rfl, rfl⟩

end Handles

/-- An intent that is turned away leaves nothing behind, and a transaction that fails has used up a
nonce and a block and nothing else. -/
theorem submit_atomic (s : Sandbox)
    (hpay : ∀ id offer, s.offer? id = some offer → 0 < offer.payAmount.raw.toNat)
    (intent : Intent) :
    ((∃ stop, (s.submit intent).1 = .error stop) ↔
      intent.contract ≠ s.market ∨ ¬ s.kind.HasMethod intent.method) ∧
    (∀ stop, (s.submit intent).1 = .error stop → (s.submit intent).2 = s) ∧
    ∀ pending failure, (s.submit intent).1 = .ok pending → pending.wait = .error failure →
      ((∃ cause, failure = .transactionFailed (.rejected cause)) ∨
        ∃ cause, failure = .transactionFailed (.decode cause)) ∧
      (s.submit intent).2 = { s with nonce := s.nonce + 1, block := s.block + 1 } := by
  have h := s.submit_handles intent
  refine ⟨⟨?_, fun hother => ?_⟩, fun stop hstop => (h.eq_of_error hstop hpay).1,
    fun pending failure hpending hwait => h.eq_of_wait_eq_error hpending hwait⟩
  · rintro ⟨stop, hstop⟩
    exact (h.eq_of_error hstop hpay).2
  · cases hresult : (s.submit intent).1 with
    | error stop => exact ⟨stop, rfl⟩
    | ok pending =>
        obtain ⟨hhere, hhas⟩ := h.hasMethod_of_ok hresult
        rcases hother with hcontract | hmethod
        · exact absurd hhere hcontract
        · exact absurd hhas hmethod

theorem submit_atomic_of_trial :
    let s := trial.insert (trial.offerOf trialTerms)
    let hidden := (Command.setBuyEnabled true).intent s.market
    let tooMuch := (Command.take 1 ⟨.ofUInt64 4⟩).intent s.market
    s.offer? 1 = some (trial.offerOf trialTerms) ∧ (s.submit hidden).2 = s ∧
      (s.submit tooMuch).2 = { s with nonce := 1, block := 2 } := by
  intro s hidden tooMuch
  have hpay (id : OrderId) (offer : Offer) (h : s.offer? id = some offer) :
      0 < offer.payAmount.raw.toNat := by
    rw [offer?_insert] at h
    split at h
    · cases h
      decide
    · cases h
  have hunknown : (s.submit hidden).1 = .error (.fault (.unknownMethod "setBuyEnabled")) := rfl
  have hrejected : (s.submit tooMuch).1 =
      .ok ⟨s.nextHash, some (.error (.rejected (.badFill ⟨.ofUInt64 4⟩ 1 ⟨.ofUInt64 3⟩)))⟩ := rfl
  exact ⟨by decide, (submit_atomic s hpay hidden).2.1 _ hunknown,
    ((submit_atomic s hpay tooMuch).2.2 _ _ hrejected rfl).2⟩

end Barter.Sandbox
