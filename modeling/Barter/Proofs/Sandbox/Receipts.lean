import Barter.Proofs.Sandbox.Changes
import Barter.Proofs.Sandbox.Replay

namespace Barter

def Command.eventKind? : Command → Option EventKind
  | .make _ => some .make
  | .offer _ _ => some .make
  | .bump _ => some .bump
  | .take _ _ => some .take
  | .kill _ => some .kill
  | .setBuyEnabled _ => none
  | .setMatchingEnabled _ => none
  | .whitelist _ => none

def Event.madeId? : Event → Option OrderId
  | .make order => some order.id
  | _ => none

namespace Log.Tells

variable {l : Log} {e : Event}

theorem ofLog_eq (h : l.Tells e) (kind : EventKind) :
    Event.ofLog kind l =
      if kind = e.kind then .ok e else .error (.malformedEvent kind (.otherEvent e.kind.name)) := by
  by_cases hkind : kind = e.kind
  · rw [if_pos hkind, hkind, Event.ofLog, h.read]
    rfl
  · have hname : l.event ≠ kind.name := fun hname =>
      hkind (EventKind.name_injective (hname.symm.trans h.event_eq))
    have hread : l.read kind = .error (.otherEvent l.event) := if_pos hname
    rw [if_neg hkind, Event.ofLog, hread, h.event_eq]
    rfl

theorem announcement_eq {order : Announcement} (h : l.Tells (.make order)) :
    l.announcement = .ok order := by
  have hread : Event.make <$> l.announcement = .ok (.make order) :=
    (if_neg (not_not.mpr h.event_eq)).symm.trans h.read
  cases hannounced : l.announcement with
  | error fault =>
      rw [hannounced] at hread
      cases hread
  | ok found =>
      rw [hannounced] at hread
      cases hread
      rfl

theorem createdOrderId_eq (h : l.Tells e) {receipt : Receipt} (hlogs : receipt.logs = [l]) :
    receipt.createdOrderId = .ok e.madeId? := by
  rw [Receipt.createdOrderId, hlogs]
  cases e with
  | make order =>
      have hevent : l.event = EventKind.make.name := h.event_eq
      rw [List.find?_cons_of_pos (by simpa using hevent)]
      simp only [h.announcement_eq]
      rfl
  | bump | take | kill =>
      rw [List.find?_cons_of_neg (by simp [h.event_eq, Event.kind, EventKind.name])]
      rfl

end Log.Tells

namespace Sandbox

/-- The event that a command is on a market as it stands before: an order is made with the next id,
one that is bumped or killed is told as it stands, and a taker gives the share of the amount wanted.
-/
inductive Reports (s : Sandbox) (origin : Origin) : Command → Event → Prop
  | made (c : Command) (terms : Terms) (hterms : c.terms? = some terms) :
      Reports s origin c
        (.make { terms with id := s.nextId, maker := s.sender, timestamp := s.now, origin })
  | bumped (id : OrderId) (offer : Offer) (hoffer : s.offer? id = some offer) :
      Reports s origin (.bump id)
        (.bump { offer.toTerms with id, maker := offer.owner, timestamp := s.now, origin })
  | taken (id : OrderId) (offer : Offer) (quantity given : Wad) (hoffer : s.offer? id = some offer)
      (hgiven : given.raw.toNat =
        quantity.raw.toNat * offer.buyAmount.raw.toNat / offer.payAmount.raw.toNat) :
      Reports s origin (.take id quantity)
        (.take {
          id
          maker := offer.owner
          taker := s.sender
          payToken := offer.payToken
          takeAmount := quantity
          buyToken := offer.buyToken
          giveAmount := given
          timestamp := s.now
          origin })
  | killed (id : OrderId) (offer : Offer) (hoffer : s.offer? id = some offer) :
      Reports s origin (.kill id)
        (.kill { offer.toTerms with id, maker := offer.owner, timestamp := s.now, origin })

theorem Reports.madeId?_eq {s : Sandbox} {origin : Origin} {c : Command} {e : Event}
    (h : s.Reports origin c e) : e.madeId? = c.terms?.map fun _ => s.nextId := by
  cases h with
  | made c terms hterms =>
      rw [hterms]
      rfl
  | bumped | taken | killed => rfl

section

variable {s after : Sandbox} {c : Command} {kind : EventKind} {logs : List Log}

theorem reports_of_create {terms : Terms} (hterms : c.terms? = some terms)
    (h : s.started.create terms = .ok (after, logs)) :
    ∃ log e, logs = [log] ∧ log.Tells e ∧ e.kind = .make ∧ s.Reports ⟨s.block, s.nextHash⟩ c e := by
  obtain ⟨_, heffect⟩ := create_eq_ok_iff.mp h
  obtain ⟨_, rfl⟩ := Prod.mk.inj heffect
  exact ⟨_, _, rfl, (s.started.announce_tells _ _).1, rfl, .made c terms hterms⟩

theorem reports_of_execute (hkind : c.eventKind? = some kind)
    (h : s.started.execute c = .ok (after, logs)) :
    ∃ log e, logs = [log] ∧ log.Tells e ∧ e.kind = kind ∧ s.Reports ⟨s.block, s.nextHash⟩ c e := by
  cases c with
  | make terms =>
      cases hkind
      exact reports_of_create rfl h
  | offer terms position =>
      cases hkind
      simp only [execute] at h
      split at h
      · cases h
      · exact reports_of_create rfl h
  | bump id =>
      cases hkind
      obtain ⟨offer, hoffer, heffect⟩ := bump_eq_ok_iff.mp h
      obtain ⟨_, rfl⟩ := Prod.mk.inj heffect
      exact ⟨_, _, rfl, (s.started.announce_tells id offer).2.1, rfl, .bumped id offer hoffer⟩
  | take id quantity =>
      cases hkind
      obtain ⟨_, offer, given, hoffer, hfill, heffect⟩ := take_eq_ok_iff.mp h
      obtain ⟨_, rfl⟩ := Prod.mk.inj heffect
      exact ⟨_, _, rfl, s.started.recordFill_tells id offer quantity given, rfl,
        .taken id offer quantity given hoffer hfill.given_eq⟩
  | kill id =>
      cases hkind
      obtain ⟨offer, hoffer, _, heffect⟩ := kill_eq_ok_iff.mp h
      obtain ⟨_, rfl⟩ := Prod.mk.inj heffect
      exact ⟨_, _, rfl, (s.started.announce_tells id offer).2.2, rfl, .killed id offer hoffer⟩
  | setBuyEnabled | setMatchingEnabled | whitelist => cases hkind

end

/-- A transaction about an order that is mined leaves one log, which reads as the event that the
command was and as an event of no other kind. -/
theorem receipt_decodes (s : Sandbox) (intent : Intent) (c : Command) (kind : EventKind)
    (hread : Command.ofCall s.kind intent.method intent.args = .ok c)
    (hkind : c.eventKind? = some kind) (hash : Hash) (receipt : Receipt)
    (hmined : (s.submit intent).1 = .ok ⟨hash, some (.ok receipt)⟩) :
    ∃ log e, receipt.logs = [log] ∧ s.Reports ⟨receipt.block, receipt.transaction⟩ c e ∧
      log.event = kind.name ∧
      (∀ other, Event.ofLog other log =
        if other = kind then .ok e
        else .error (.malformedEvent other (.otherEvent kind.name))) ∧
      receipt.createdOrderId = .ok (c.terms?.map fun _ => s.nextId) := by
  have h := s.submit_handles intent
  obtain ⟨_, htransaction, hblock⟩ := h.receipt_of_ok hmined
  obtain ⟨found, after, hread', hexec, _⟩ := h.mined_of_ok hmined
  obtain rfl := Except.ok.inj (hread.symm.trans hread')
  obtain ⟨log, e, hlogs, htells, rfl, hreports⟩ := reports_of_execute hkind hexec
  rw [htransaction, hblock, htells.createdOrderId_eq hlogs, hreports.madeId?_eq]
  exact ⟨log, e, hlogs, hreports, htells.event_eq, htells.ofLog_eq, rfl⟩

theorem receipt_decodes_of_trial :
    let s := (trial.insert (trial.offerOf trialTerms)).setSender (Bytes.ofNat 20 9)
    ∃ hash receipt log fill,
      (s.submit ((Command.take 1 ⟨.ofUInt64 2⟩).intent s.market)).1 =
        .ok ⟨hash, some (.ok receipt)⟩ ∧
      receipt.logs = [log] ∧ Event.ofLog .take log = .ok (.take fill) ∧
      fill.taker = Bytes.ofNat 20 9 ∧ fill.giveAmount.raw.toNat = 3 ∧
      Event.ofLog .kill log = .error (.malformedEvent .kill (.otherEvent "LogTake")) ∧
      receipt.createdOrderId = .ok none := by
  intro s
  have hread : Command.ofCall s.kind (Command.take 1 ⟨.ofUInt64 2⟩).method
      (Command.take 1 ⟨.ofUInt64 2⟩).args = .ok (.take 1 ⟨.ofUInt64 2⟩) := Command.ofCall_args rfl
  obtain ⟨log, e, hlogs, hreports, _, hofLog, hcreated⟩ :=
    receipt_decodes s ((Command.take 1 ⟨.ofUInt64 2⟩).intent s.market) _ .take hread rfl _ _ rfl
  have hlive : s.offer? 1 = some (trial.offerOf trialTerms) := by decide
  cases hreports with
  | taken id offer quantity given hoffer hgiven =>
      obtain rfl := Option.some.inj (hoffer.symm.trans hlive)
      exact ⟨_, _, log, _, rfl, hlogs, hofLog .take, rfl, hgiven, hofLog .kill, hcreated⟩
  | made _ _ hterms => cases hterms

end Sandbox

end Barter
