import Barter.Proofs.Sandbox.Deeds

namespace Barter

structure Intent.Names (intent : Intent) (id : OrderId) : Prop where
  method_mem : intent.method ∈ ["bump", "take", "kill"]
  orderId_eq : Outputs.orderId ⟨intent.method, intent.args⟩ 0 = .ok id

def Command.orderId? : Command → Option OrderId
  | .bump id => some id
  | .take id _ => some id
  | .kill id => some id
  | _ => none

theorem Command.names_intent {c : Command} {id : OrderId} (h : c.orderId? = some id)
    (market : Address) : (c.intent market).Names id := by
  cases c with
  | bump | take | kill =>
      obtain rfl := Option.some.inj h
      exact ⟨by simp [intent, method], Outputs.orderId_of_get _ 0 _ rfl⟩
  | make | offer | setBuyEnabled | setMatchingEnabled | whitelist => cases h

/-- A call that names an order is read as a command about it, unless it is a take of an amount that
cannot be read. -/
theorem Intent.Names.ofCall {intent : Intent} {id : OrderId} (h : intent.Names id)
    (kind : MarketKind) :
    (∃ c, Command.ofCall kind intent.method intent.args = .ok c ∧ c.orderId? = some id) ∨
      ∃ cause, Command.ofCall kind intent.method intent.args = .error (.decode cause) := by
  obtain ⟨contract, method, args⟩ := intent
  obtain ⟨hmethod, hid⟩ := h
  simp only [List.mem_cons, List.not_mem_nil, or_false] at hmethod
  rcases hmethod with rfl | rfl | rfl
  · exact .inl ⟨.bump id, congrArg (Command.bump <$> ·) hid, rfl⟩
  · have hread : Command.ofCall kind "take" args =
        (Outputs.amount ⟨"take", args⟩ 1 >>= fun quantity => pure (.take id quantity)) :=
      congrArg (· >>= fun id => Outputs.amount ⟨"take", args⟩ 1 >>= fun quantity =>
        pure (Command.take id quantity)) hid
    cases hquantity : Outputs.amount ⟨"take", args⟩ 1 with
    | ok quantity =>
        rw [hquantity] at hread
        exact .inl ⟨.take id quantity, hread, rfl⟩
    | error fault =>
        obtain ⟨cause, rfl⟩ := Outputs.isReading_amount _ 1 fault hquantity
        rw [hquantity] at hread
        exact .inr ⟨cause, hread⟩
  · exact .inl ⟨.kill id, congrArg (Command.kill <$> ·) hid, rfl⟩

def Log.unstamped (l : Log) : Log :=
  { l with block := 0, transaction := Bytes.zero 32 }

def Receipt.unstamped (r : Receipt) : Receipt :=
  ⟨Bytes.zero 32, 0, r.logs.map Log.unstamped⟩

def Pending.unstamped (p : Pending) : Pending :=
  ⟨Bytes.zero 32, p.outcome.map (·.map Receipt.unstamped)⟩

namespace Sandbox

structure AlikeAt (s t : Sandbox) (id : OrderId) : Prop where
  market : t.market = s.market
  kind : t.kind = s.kind
  sender : t.sender = s.sender
  now : t.now = s.now
  closeTime : t.closeTime = s.closeTime
  offer : t.offer? id = s.offer? id

structure Deal where
  rest : Option Offer
  event : EventKind
  args : Std.ExtTreeMap String Value

def Deal.effect (d : Deal) (id : OrderId) (s : Sandbox) : Effect :=
  (s.setOffer id d.rest, [s.stamp d.event d.args])

namespace AlikeAt

variable {s t : Sandbox} {id : OrderId}

theorem isClosed_eq (h : s.AlikeAt t id) : t.isClosed = s.isClosed := by
  rw [isClosed, isClosed, h.kind, h.closeTime, h.now]

theorem liveOffer_eq (h : s.AlikeAt t id) : t.liveOffer id = s.liveOffer id := by
  have hoffer : t.offers[id]? = s.offers[id]? := h.offer
  rw [liveOffer, liveOffer, hoffer]

theorem announce_eq (h : s.AlikeAt t id) (event : EventKind) (offer : Offer) :
    t.announce event id offer = t.stamp event (s.announce event id offer).args := by
  rw [announce, h.now]
  rfl

theorem recordFill_eq (h : s.AlikeAt t id) (offer : Offer) (quantity given : Wad) :
    t.recordFill id offer quantity given =
      t.stamp .take (s.recordFill id offer quantity given).args := by
  rw [recordFill, h.now, h.sender]
  rfl

end AlikeAt

theorem setOffer_of_offer? {s : Sandbox} {id : OrderId} {offer : Offer}
    (h : s.offer? id = some offer) : s.setOffer id (some offer) = s := by
  have hoffers : s.offers.insert id offer = s.offers := by
    refine Std.ExtTreeMap.ext_getElem? fun other => ?_
    have hset := s.offer?_setOffer id (some offer) other
    by_cases hid : id = other
    · subst hid
      rw [if_pos rfl] at hset
      exact hset.trans h.symm
    · rw [if_neg hid] at hset
      exact hset
  exact congrArg (fun offers => { s with offers := offers }) hoffers

section

variable (s : Sandbox) (id : OrderId)

theorem bump_deals : ∃ deal : Except Stop Deal, ∀ t, s.AlikeAt t id →
    t.bump id = deal.map (Deal.effect · id t) := by
  cases hlive : s.liveOffer id with
  | error stop =>
      refine ⟨.error stop, fun t h => ?_⟩
      rw [bump, h.liveOffer_eq, hlive]
      rfl
  | ok offer =>
      refine ⟨.ok ⟨some offer, .bump, (s.announce .bump id offer).args⟩, fun t h => ?_⟩
      have hoffer : t.offer? id = some offer := h.offer.trans (liveOffer_eq_ok_iff.mp hlive)
      rw [bump, h.liveOffer_eq, hlive, Except.map, Deal.effect, setOffer_of_offer? hoffer,
        ← h.announce_eq]
      rfl

theorem kill_deals : ∃ deal : Except Stop Deal, ∀ t, s.AlikeAt t id →
    t.kill id = deal.map (Deal.effect · id t) := by
  cases hlive : s.liveOffer id with
  | error stop =>
      refine ⟨.error stop, fun t h => ?_⟩
      rw [kill, h.liveOffer_eq, hlive]
      rfl
  | ok offer =>
      have hkill {t : Sandbox} (h : s.AlikeAt t id) : t.kill id =
          if offer.owner = s.sender || s.isClosed then
            .ok (t.setOffer id none, [t.announce .kill id offer])
          else .error (reject (.notOwner s.sender id)) := by
        rw [← h.sender, ← h.isClosed_eq, kill, h.liveOffer_eq, hlive]
        rfl
      by_cases hallowed : (offer.owner = s.sender || s.isClosed) = true
      · refine ⟨.ok ⟨none, .kill, (s.announce .kill id offer).args⟩, fun t h => ?_⟩
        rw [hkill h, if_pos hallowed, h.announce_eq]
        rfl
      · exact ⟨.error _, fun t h => (hkill h).trans (if_neg hallowed)⟩

theorem take_deals (quantity : Wad) : ∃ deal : Except Stop Deal, ∀ t, s.AlikeAt t id →
    t.take id quantity = deal.map (Deal.effect · id t) := by
  cases hclosed : s.isClosed with
  | true =>
      refine ⟨.error (reject .closed), fun t h => ?_⟩
      rw [take, h.isClosed_eq, hclosed]
      rfl
  | false =>
      cases hlive : s.liveOffer id with
      | error stop =>
          refine ⟨.error stop, fun t h => ?_⟩
          rw [take, h.isClosed_eq, hclosed, h.liveOffer_eq, hlive]
          rfl
      | ok offer =>
          have htake {t : Sandbox} (h : s.AlikeAt t id) : t.take id quantity =
              priceOf offer quantity >>= fun given =>
                if quantity.isZero || given.isZero || offer.payAmount < quantity then
                  .error (reject (.badFill quantity id offer.payAmount))
                else
                  .ok (t.setOffer id (remainder? offer quantity given),
                    [t.recordFill id offer quantity given]) := by
            rw [take, h.isClosed_eq, hclosed, h.liveOffer_eq, hlive]
            rfl
          cases hprice : priceOf offer quantity with
          | error stop =>
              rw [hprice] at htake
              exact ⟨.error stop, fun t h => htake h⟩
          | ok given =>
              rw [hprice] at htake
              by_cases hbad : (quantity.isZero || given.isZero || offer.payAmount < quantity) = true
              · exact ⟨.error _, fun t h => (htake h).trans (if_pos hbad)⟩
              · refine ⟨.ok ⟨remainder? offer quantity given, .take,
                  (s.recordFill id offer quantity given).args⟩, fun t h => ?_⟩
                refine (htake h).trans ((if_neg hbad).trans ?_)
                rw [h.recordFill_eq]
                rfl

theorem execute_deals {c : Command} (hc : c.orderId? = some id) :
    ∃ deal : Except Stop Deal, ∀ t, s.AlikeAt t id → t.execute c = deal.map (Deal.effect · id t) := by
  cases c with
  | bump =>
      obtain rfl := Option.some.inj hc
      exact s.bump_deals _
  | take _ quantity =>
      obtain rfl := Option.some.inj hc
      exact s.take_deals _ quantity
  | kill =>
      obtain rfl := Option.some.inj hc
      exact s.kill_deals _
  | make | offer | setBuyEnabled | setMatchingEnabled | whitelist => cases hc

end

/-- How a market answers a call that names an order, whatever else stands in its book and however
far its history has come. -/
inductive Verdict where
  | turnedAway (cause : Fault)
  | trapped (trap : Trap)
  | rejected (cause : Fault)
  | mined (deal : Deal)

def Verdict.apply (v : Verdict) (id : OrderId) (s : Sandbox) : Except Stop Pending × Sandbox :=
  match v with
  | turnedAway cause => (.error (.fault cause), s)
  | trapped trap => (.error (.trapped trap), s.started)
  | rejected cause => (.ok ⟨s.nextHash, some (.error cause)⟩, s.started.mine [])
  | mined deal =>
      let (after, logs) := deal.effect id s.started
      (.ok ⟨s.nextHash, some (.ok ⟨s.nextHash, s.block, logs⟩)⟩, after.mine logs)

/-- A call that names an order is judged by that order alone. -/
theorem exists_verdict (s : Sandbox) {intent : Intent} {id : OrderId} (h : intent.Names id) :
    ∃ v : Verdict, ∀ t, s.AlikeAt t id → t.submit intent = v.apply id t := by
  by_cases hhere : intent.contract = s.market
  · have hsubmit {t : Sandbox} (ht : s.AlikeAt t id) :
        t.submit intent = t.transact (Command.ofCall s.kind intent.method intent.args) := by
      rw [submit, ht.market, if_neg (Decidable.not_not.mpr hhere), ht.kind]
      rcases h.ofCall s.kind with ⟨c, hread, _⟩ | ⟨cause, hread⟩
      · rw [hread]
      · rw [hread]
    rcases h.ofCall s.kind with ⟨c, hread, hc⟩ | ⟨cause, hread⟩
    · rw [hread] at hsubmit
      obtain ⟨deal, hdeal⟩ := s.started.execute_deals id hc
      have hexec {t : Sandbox} (ht : s.AlikeAt t id) :
          t.started.execute c = deal.map (Deal.effect · id t.started) :=
        hdeal t.started ⟨ht.market, ht.kind, ht.sender, ht.now, ht.closeTime, ht.offer⟩
      rcases deal with (cause | trap) | deal
      · refine ⟨.rejected cause, fun t ht => ?_⟩
        rw [hsubmit ht, transact_ok, hexec ht]
        rfl
      · refine ⟨.trapped trap, fun t ht => ?_⟩
        rw [hsubmit ht, transact_ok, hexec ht]
        rfl
      · refine ⟨.mined deal, fun t ht => ?_⟩
        rw [hsubmit ht, transact_ok, hexec ht]
        rfl
    · refine ⟨.rejected (.decode cause), fun t ht => ?_⟩
      rw [hsubmit ht, hread, transact_garbled]
      rfl
  · refine ⟨.turnedAway (.transport (.noContract intent.contract)), fun t ht => ?_⟩
    rw [submit, ht.market, if_pos hhere]
    rfl

theorem setOffer_comm (s : Sandbox) {id other : OrderId} (h : id ≠ other) (o p : Option Offer) :
    (s.setOffer id o).setOffer other p = (s.setOffer other p).setOffer id o := by
  have hoffers : ((s.setOffer id o).setOffer other p).offers =
      ((s.setOffer other p).setOffer id o).offers := by
    refine Std.ExtTreeMap.ext_getElem? fun k => ?_
    have hone := (s.setOffer id o).offer?_setOffer other p k
    have hother := (s.setOffer other p).offer?_setOffer id o k
    rw [s.offer?_setOffer id o k] at hone
    rw [s.offer?_setOffer other p k] at hother
    refine hone.trans (Eq.trans ?_ hother.symm)
    by_cases hk : id = k
    · subst hk
      rw [if_neg (Ne.symm h), if_pos rfl, if_pos rfl]
    · rw [if_neg hk, if_neg hk]
  exact congrArg (fun offers => { s with offers := offers }) hoffers

theorem unstamped_stamp (s : Sandbox) (event : EventKind) (args : Std.ExtTreeMap String Value) :
    (s.stamp event args).unstamped = ⟨s.market, event.name, 0, Bytes.zero 32, args⟩ :=
  rfl

namespace Verdict

variable (v w : Verdict) {id other : OrderId} {s t : Sandbox}

theorem unstamped_apply (h : t.market = s.market) :
    (v.apply id t).1.map Pending.unstamped = (v.apply id s).1.map Pending.unstamped := by
  cases v with
  | turnedAway | trapped => rfl
  | rejected => simp only [apply, Except.map, Pending.unstamped, Option.map_some]
  | mined deal =>
      have hmarket : t.started.market = s.started.market := h
      simp only [apply, Deal.effect, Except.map, Pending.unstamped, Option.map_some,
        Receipt.unstamped, List.map_cons, List.map_nil, unstamped_stamp, hmarket]

/-- A verdict about one order touches nothing that a verdict about another looks at. -/
theorem alikeAt_apply (h : id ≠ other) (a b : Address) :
    (s.setSender b).AlikeAt ((v.apply id (s.setSender a)).2.setSender b) other := by
  cases v with
  | turnedAway | trapped | rejected => exact ⟨rfl, rfl, rfl, rfl, rfl, rfl⟩
  | mined deal =>
      have hoffer := ((s.setSender a).started.offer?_setOffer id deal.rest other).trans (if_neg h)
      simp only [apply, Deal.effect, mine_eq]
      exact ⟨rfl, rfl, rfl, rfl, rfl, hoffer⟩

theorem apply_comm (h : id ≠ other) (a b : Address) :
    let one := (w.apply other ((v.apply id (s.setSender a)).2.setSender b)).2
    let two := (v.apply id ((w.apply other (s.setSender b)).2.setSender a)).2
    two = { one with sender := a, logs := two.logs, channels := two.channels } := by
  intro one two
  have hoffers : two.offers = one.offers := by
    cases v with
    | turnedAway | trapped | rejected => cases w <;> rfl
    | mined deal =>
        cases w with
        | turnedAway | trapped | rejected => rfl
        | mined otherDeal =>
            have hswap := congrArg offers (s.setOffer_comm h deal.rest otherDeal.rest)
            exact hswap.symm
  -- blocks and nonces are counted alike, whoever goes first
  have hrest : two =
      { one with
        sender := a
        offers := two.offers
        logs := two.logs
        channels := two.channels } := by
    cases v <;> cases w <;> rfl
  rw [hoffers] at hrest
  exact hrest

end Verdict

structure Publishes (s t : Sandbox) (news : List Log) : Prop where
  logs : t.logs = s.logs ++ news
  channels : t.channels = s.channels.map fun c => news.foldl Channel.deliver c

theorem Publishes.trans {s t u : Sandbox} {news later : List Log} (h : s.Publishes t news)
    (h' : t.Publishes u later) : s.Publishes u (news ++ later) := by
  refine ⟨?_, ?_⟩
  · rw [h'.logs, h.logs, List.append_assoc]
  · rw [h'.channels, h.channels, List.map_map]
    simp only [List.foldl_append, Function.comp_def]

def submitAs (s : Sandbox) (sender : Address) (intent : Intent) : Except Stop Pending × Sandbox :=
  (s.setSender sender).submit intent

theorem submitAs_publishes (s : Sandbox) (sender : Address) (intent : Intent) :
    s.Publishes (s.submitAs sender intent).2 (published (s.submitAs sender intent).1) := by
  refine ⟨?_, (submit_snd (s := s.setSender sender) intent).2⟩
  have hlogs := (s.setSender sender).logs_undergoAll [.act (.submit intent)]
  have hblocks : (s.setSender sender).blocks [.act (.submit intent)] =
      (s.submitAs sender intent).1.toOption.toList := List.append_nil _
  have hpublished : (s.submitAs sender intent).1.toOption.toList.flatMap Pending.logs =
      published (s.submitAs sender intent).1 := by
    cases (s.submitAs sender intent).1 with
    | error stop => rfl
    | ok pending => exact List.append_nil _
  rw [hblocks, hpublished] at hlogs
  exact (congrArg logs ((s.setSender sender).act_submit intent)).symm.trans hlogs

/-- Commands about different orders commute: each ends the same when the other has gone first, but
for the block and the name of its transaction. -/
theorem submitAs_comm (s : Sandbox) (a b : Address) {i j : Intent} {id other : OrderId}
    (hi : i.Names id) (hj : j.Names other) (hne : id ≠ other) :
    let iFirst := s.submitAs a i
    let jSecond := iFirst.2.submitAs b j
    let jFirst := s.submitAs b j
    let iSecond := jFirst.2.submitAs a i
    iSecond.1.map Pending.unstamped = iFirst.1.map Pending.unstamped ∧
    jSecond.1.map Pending.unstamped = jFirst.1.map Pending.unstamped ∧
    s.Publishes jSecond.2 (published iFirst.1 ++ published jSecond.1) ∧
    s.Publishes iSecond.2 (published jFirst.1 ++ published iSecond.1) ∧
    iSecond.2 =
      { jSecond.2 with
        sender := a
        logs := iSecond.2.logs
        channels := iSecond.2.channels } := by
  intro iFirst jSecond jFirst iSecond
  obtain ⟨v, hv⟩ := (s.setSender a).exists_verdict hi
  obtain ⟨w, hw⟩ := (s.setSender b).exists_verdict hj
  have hiFirst : iFirst = v.apply id (s.setSender a) := hv _ ⟨rfl, rfl, rfl, rfl, rfl, rfl⟩
  have hjFirst : jFirst = w.apply other (s.setSender b) := hw _ ⟨rfl, rfl, rfl, rfl, rfl, rfl⟩
  have hiAlike : (s.setSender a).AlikeAt (jFirst.2.setSender a) id :=
    hjFirst ▸ w.alikeAt_apply (Ne.symm hne) b a
  have hjAlike : (s.setSender b).AlikeAt (iFirst.2.setSender b) other :=
    hiFirst ▸ v.alikeAt_apply hne a b
  have hiSecond : iSecond = v.apply id (jFirst.2.setSender a) := hv _ hiAlike
  have hjSecond : jSecond = w.apply other (iFirst.2.setSender b) := hw _ hjAlike
  refine ⟨?_, ?_, ?_, ?_, ?_⟩
  · rw [hiSecond, hiFirst]
    exact v.unstamped_apply hiAlike.market
  · rw [hjSecond, hjFirst]
    exact w.unstamped_apply hjAlike.market
  · exact (s.submitAs_publishes a i).trans (iFirst.2.submitAs_publishes b j)
  · exact (s.submitAs_publishes b j).trans (jFirst.2.submitAs_publishes a i)
  · rw [hiSecond, hjSecond, hiFirst, hjFirst]
    exact v.apply_comm w hne a b

theorem submitAs_comm_of_trial :
    let offer := trial.offerOf trialTerms
    let s := (trial.insert offer).insert offer
    let stranger := Bytes.ofNat 20 9
    let taking := (Command.take 1 ⟨.ofUInt64 2⟩).intent s.market
    let killing := (Command.kill 2).intent s.market
    let takenFirst := s.submitAs stranger taking
    let takenSecond := (s.submitAs s.sender killing).2.submitAs stranger taking
    let killedSecond := takenFirst.2.submitAs s.sender killing
    (published killedSecond.1).length = 1 ∧
      takenSecond.1.map Pending.unstamped = takenFirst.1.map Pending.unstamped ∧
      takenSecond.2.offers = killedSecond.2.offers ∧
      (takenSecond.2.offer? 1).isSome = true ∧ takenSecond.2.offer? 2 = none := by
  intro offer s stranger taking killing takenFirst takenSecond killedSecond
  obtain ⟨htaken, _, _, _, hsame⟩ := s.submitAs_comm stranger s.sender
    (Command.names_intent (c := .take 1 ⟨.ofUInt64 2⟩) rfl s.market)
    (Command.names_intent (c := .kill 2) rfl s.market) (by decide)
  have hoffers : takenSecond.2.offers = killedSecond.2.offers := by rw [hsame]
  exact ⟨by decide, htaken, hoffers, by decide, by decide⟩

end Sandbox

end Barter
