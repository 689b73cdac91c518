import Barter.Client.Events
import Barter.Proofs.Book
import Barter.Proofs.Sandbox.Blocks

namespace Barter

structure Log.Tells (l : Log) (e : Event) : Prop where
  read : l.read e.kind = .ok e
  origin : e.origin = l.origin

theorem Log.Tells.event_eq {l : Log} {e : Event} (h : l.Tells e) : l.event = e.kind.name := by
  have hread := h.read
  unfold Log.read at hread
  split at hread
  · cases hread
  next hsame => exact not_not.mp hsame

namespace Sandbox

def announced (s : Sandbox) (id : OrderId) (offer : Offer) : Announcement :=
  { offer.toTerms with
    id
    maker := offer.owner
    timestamp := s.now
    origin := ⟨s.block, transactionHash s.market s.nonce⟩ }

def filled (s : Sandbox) (id : OrderId) (offer : Offer) (quantity given : Wad) : Fill where
  id := id
  maker := offer.owner
  taker := s.sender
  payToken := offer.payToken
  takeAmount := quantity
  buyToken := offer.buyToken
  giveAmount := given
  timestamp := s.now
  origin := ⟨s.block, transactionHash s.market s.nonce⟩

theorem announcement_announce (s : Sandbox) (kind : EventKind) (id : OrderId) (offer : Offer) :
    (s.announce kind id offer).announcement = .ok (s.announced id offer) := by
  simp only [Log.announcement, Log.orderId, Log.address, Log.amount, Log.number, Log.field,
    announce, stamp, Std.ExtTreeMap.getElem?_insert]
  simp [bind, Except.bind, Value.orderId, Value.amount, Value.number, Log.narrow,
    Word.ofBytes_ofNat, Word.toUInt64?_ofUInt64, pure, Except.pure, Log.origin, announced]

theorem fill_recordFill (s : Sandbox) (id : OrderId) (offer : Offer) (quantity given : Wad) :
    (s.recordFill id offer quantity given).fill = .ok (s.filled id offer quantity given) := by
  simp only [Log.fill, Log.orderId, Log.address, Log.amount, Log.number, Log.field,
    recordFill, stamp, Std.ExtTreeMap.getElem?_insert]
  simp [bind, Except.bind, Value.orderId, Value.amount, Value.number, Log.narrow,
    Word.ofBytes_ofNat, Word.toUInt64?_ofUInt64, pure, Except.pure, Log.origin, filled]

theorem announce_tells (s : Sandbox) (id : OrderId) (offer : Offer) :
    (s.announce .make id offer).Tells (.make (s.announced id offer)) ∧
      (s.announce .bump id offer).Tells (.bump (s.announced id offer)) ∧
      (s.announce .kill id offer).Tells (.kill (s.announced id offer)) := by
  refine ⟨⟨?_, rfl⟩, ⟨?_, rfl⟩, ⟨?_, rfl⟩⟩
  · exact (if_neg (not_not.mpr rfl)).trans
      (congrArg (Event.make <$> ·) (s.announcement_announce .make id offer))
  · exact (if_neg (not_not.mpr rfl)).trans
      (congrArg (Event.bump <$> ·) (s.announcement_announce .bump id offer))
  · exact (if_neg (not_not.mpr rfl)).trans
      (congrArg (Event.kill <$> ·) (s.announcement_announce .kill id offer))

theorem recordFill_tells (s : Sandbox) (id : OrderId) (offer : Offer) (quantity given : Wad) :
    (s.recordFill id offer quantity given).Tells (.take (s.filled id offer quantity given)) := by
  refine ⟨?_, rfl⟩
  exact (if_neg (not_not.mpr rfl)).trans
    (congrArg (Event.take <$> ·) (s.fill_recordFill id offer quantity given))

/-- A command that is logged does to the offers what its record says. -/
theorem Executes.tells {s after : Sandbox} {log : Log} (h : s.Executes after [log]) :
    ∃ e, log.Tells e ∧ e.apply s.offers = after.offers := by
  generalize hlogs : [log] = logs at h
  cases h with
  | configured => cases hlogs
  | made terms =>
      obtain rfl := List.singleton_inj.mp hlogs
      exact ⟨.make _, (s.announce_tells _ _).1, rfl⟩
  | bumped id offer =>
      obtain rfl := List.singleton_inj.mp hlogs
      exact ⟨.bump _, (s.announce_tells id offer).2.1, rfl⟩
  | taken id offer quantity given hoffer =>
      obtain rfl := List.singleton_inj.mp hlogs
      refine ⟨.take _, s.recordFill_tells id offer quantity given, ?_⟩
      have hlive : s.offers[id]? = some offer := hoffer
      have hrest : offer.after (s.filled id offer quantity given) =
          remainder? offer quantity given := rfl
      simp only [Event.apply, setOffer, ← hrest]
      rw [show s.offers[(s.filled id offer quantity given).id]? = some offer from hlive]
      rfl
  | killed id offer =>
      obtain rfl := List.singleton_inj.mp hlogs
      exact ⟨.kill _, (s.announce_tells id offer).2.2, rfl⟩

/-- The records of a run are those of events that lead from the old offers to the new ones. -/
theorem run_tells (s : Sandbox) (moves : List Move) :
    ∃ events, List.Forall₂ Log.Tells (s.logsOf moves) events ∧
      Book.replay s.offers events = (s.run moves).offers := by
  induction moves generalizing s with
  | nil => exact ⟨[], .nil, rfl⟩
  | cons m rest ih =>
      obtain ⟨events, htells, hreplay⟩ := ih (s.move m)
      rw [logsOf, run_cons, ← hreplay]
      cases s.move_moves m with
      | idle hlogs hsame | blank hlogs hsame =>
          rw [hlogs, hsame.offers]
          exact ⟨events, htells, rfl⟩
      | logged after log hexec hlogs hafter =>
          obtain ⟨e, he, happly⟩ := hexec.tells
          have hoffers : (s.move m).offers = after.offers := by rw [hafter, mine_eq]
          rw [hlogs, hoffers, ← happly]
          exact ⟨e :: events, .cons he htells, rfl⟩

end Sandbox

namespace Log

theorem map_ofLog {logs : List Log} {events : List Event}
    (h : List.Forall₂ Tells logs events) (kind : EventKind) :
    (logs.filter (·.event = kind.name)).map (Event.ofLog kind) =
      (Book.ofKind events kind).map .ok := by
  induction h with
  | nil => rfl
  | @cons l e logs events hl _ ih =>
      by_cases hkind : e.kind = kind
      · have hname : l.event = kind.name := hkind ▸ hl.event_eq
        have hread : Event.ofLog kind l = .ok e := by
          rw [Event.ofLog, ← hkind, hl.read]
          rfl
        rw [Book.ofKind, List.filter_cons_of_pos (by simpa using hname),
          List.filter_cons_of_pos (by simpa using hkind), List.map_cons, hread, ih]
        rfl
      · have hname : l.event ≠ kind.name := fun hname =>
          hkind (EventKind.name_injective (hl.event_eq.symm.trans hname))
        rw [Book.ofKind, List.filter_cons_of_neg (by simpa using hname),
          List.filter_cons_of_neg (by simpa using hkind), ih]
        rfl

theorem map_block {logs : List Log} {events : List Event} (h : List.Forall₂ Tells logs events) :
    events.map (fun e => e.origin.block) = logs.map (·.block) := by
  induction h with
  | nil => rfl
  | cons hl _ ih =>
      rw [List.map_cons, List.map_cons, ih, hl.origin]
      rfl

end Log

namespace Sandbox

theorem pastEvents_eq (s : Sandbox) (kind : EventKind) (blocks : UInt64)
    (absent : Std.ExtTreeSet OrderId)
    (hfar : ∀ l ∈ s.logs, s.block.toNat - blocks.toNat ≤ l.block.toNat) :
    Client.pastEvents ledger s.market kind blocks ⟨absent, s⟩ =
      (.ok ((s.logs.filter (·.event = kind.name)).map (Event.ofLog kind)), ⟨absent, s⟩) := by
  have hlogs : s.pastLogs s.market kind.name blocks = s.logs.filter (·.event = kind.name) := by
    rw [pastLogs, if_neg (not_not.mpr rfl)]
    refine List.filter_congr fun l hl => ?_
    simp [hfar l hl]
  rw [← hlogs]
  rfl

theorem pastEvents_run (s : Sandbox) (moves : List Move) (blocks : UInt64) (hlogs : s.logs = [])
    (hcount : s.block.toNat + s.mined moves ≤ UInt64.size) (hblocks : s.mined moves ≤ blocks.toNat) :
    ∃ events, events.Pairwise (fun a b => a.origin.block < b.origin.block) ∧
      Book.replay s.offers events = (s.run moves).offers ∧
      ∀ kind absent, Client.pastEvents ledger s.market kind blocks ⟨absent, s.run moves⟩ =
        (.ok ((Book.ofKind events kind).map .ok), ⟨absent, s.run moves⟩) := by
  obtain ⟨events, htells, hreplay⟩ := s.run_tells moves
  obtain ⟨hordered, hfrom⟩ := logs_ordered hcount
  have hrun : (s.run moves).logs = s.logsOf moves := by rw [logs_run, hlogs, List.nil_append]
  refine ⟨events, ?_, hreplay, fun kind absent => ?_⟩
  · rw [← List.pairwise_map (R := (· < ·)), Log.map_block htells]
    exact List.pairwise_map.mpr hordered
  · have h := pastEvents_eq (s.run moves) kind blocks absent ?_
    · rwa [market_run, hrun, Log.map_ofLog htells] at h
    · intro l hl
      have hle := UInt64.le_iff_toNat_le.mp (hfrom l (hrun ▸ hl))
      have hlast := s.block_run_le moves
      omega

/-- Whatever is done to a new market, whoever looks back over all its blocks and replays what was
made, taken and killed, block by block, has the offers as they stand. -/
theorem replay_pastEvents (market : Address) (kind : MarketKind) (sender : Address) (now : UInt64)
    (moves : List Move) (blocks : UInt64)
    (hblocks : (Sandbox.new market kind sender now).mined moves ≤ blocks.toNat)
    (absent : Std.ExtTreeSet OrderId) :
    let v : View Sandbox := ⟨absent, (Sandbox.new market kind sender now).run moves⟩
    ∃ makes takes kills,
      Client.pastEvents ledger market .make blocks v = (.ok (makes.map .ok), v) ∧
      Client.pastEvents ledger market .take blocks v = (.ok (takes.map .ok), v) ∧
      Client.pastEvents ledger market .kill blocks v = (.ok (kills.map .ok), v) ∧
      Book.replay ∅ (Book.merge makes takes kills) = v.ledger.offers := by
  have hfirst : (Sandbox.new market kind sender now).block.toNat = 1 := rfl
  have hlt := blocks.toNat_lt
  have hcount : (Sandbox.new market kind sender now).block.toNat +
      (Sandbox.new market kind sender now).mined moves ≤ UInt64.size := by
    rw [hfirst, UInt64.size]
    omega
  obtain ⟨events, hordered, hreplay, htold⟩ := pastEvents_run _ moves blocks rfl hcount hblocks
  exact ⟨_, _, _, htold .make absent, htold .take absent, htold .kill absent,
    (Book.replay_merge hordered ∅).trans hreplay⟩

theorem replay_pastEvents_of_trial :
    let v : View Sandbox := ⟨∅, trial.run trialMoves⟩
    ∃ makes takes kills,
      Client.pastEvents ledger trial.market .make 2 v = (.ok (makes.map .ok), v) ∧
      Client.pastEvents ledger trial.market .take 2 v = (.ok (takes.map .ok), v) ∧
      Client.pastEvents ledger trial.market .kill 2 v = (.ok (kills.map .ok), v) ∧
      Book.replay ∅ (Book.merge makes takes kills) = v.ledger.offers :=
  replay_pastEvents _ _ _ _ trialMoves 2 (by decide) ∅

end Sandbox

end Barter
