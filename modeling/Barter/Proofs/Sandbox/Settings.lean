import Barter.Proofs.Sandbox.Deeds

namespace Barter

open Session

inductive Answer where
  | nothing
  | reply (result : Except Refusal Reply)
  | taken (result : Except Stop Pending)
  | stream (stream : Stream)

def Deed.asksFlag : Deed → Bool
  | .act (.call _ method _) => method = "buyEnabled" || method = "matchingEnabled"
  | _ => false

structure Settings where
  closeTime : UInt64
  buyEnabled : Bool
  matchingEnabled : Bool
  whitelist : Std.ExtTreeSet TokenPair

namespace Sandbox

def answerTo (s : Sandbox) : Deed → Answer
  | .act (.submit intent) => .taken (s.submit intent).1
  | .act a => .reply (onSandbox s a).1
  | .approve _ _ => .nothing
  | .subscribe contract event => .stream (s.subscribe contract event).1
  | .unsubscribe _ => .nothing

def setUp (s : Sandbox) (x : Settings) : Sandbox :=
  { s with
    closeTime := x.closeTime
    buyEnabled := x.buyEnabled
    matchingEnabled := x.matchingEnabled
    whitelist := x.whitelist }

/-- The same market but for the flags and those settings that its kind does not have. -/
structure Resembles (s t : Sandbox) : Prop where
  same : ∃ x, t = s.setUp x
  closeTime : s.kind ≠ .simple → t.closeTime = s.closeTime
  whitelist : s.kind = .matching → t.whitelist = s.whitelist

inductive SameEffect : Except Stop Effect → Except Stop Effect → Prop
  | refused (stop : Stop) : SameEffect (.error stop) (.error stop)
  | done {s t : Sandbox} (h : s.Resembles t) (logs : List Log) :
      SameEffect (.ok (s, logs)) (.ok (t, logs))

namespace Resembles

variable {s t : Sandbox}

theorem isClosed_eq (h : s.Resembles t) : t.isClosed = s.isClosed := by
  obtain ⟨⟨x, rfl⟩, hclose, _⟩ := h
  cases hkind : s.kind with
  | simple =>
      rw [isClosed, isClosed, setUp, hkind]
      rfl
  | expiring | matching =>
      have hsame : x.closeTime = s.closeTime := hclose (by simp [hkind])
      rw [isClosed, isClosed, setUp, hsame]

theorem admits_eq (h : s.Resembles t) (pair : TokenPair) : t.admits pair = s.admits pair := by
  obtain ⟨⟨x, rfl⟩, _, hlist⟩ := h
  cases hkind : s.kind with
  | simple | expiring =>
      rw [admits, admits, setUp, hkind]
      rfl
  | matching =>
      have hsame : x.whitelist = s.whitelist := hlist hkind
      rw [admits, admits, setUp, hsame]

theorem liveOffer_eq (h : s.Resembles t) (id : OrderId) : t.liveOffer id = s.liveOffer id := by
  obtain ⟨⟨x, rfl⟩, _⟩ := h
  rfl

theorem create (h : s.Resembles t) (terms : Terms) :
    SameEffect (s.create terms) (t.create terms) := by
  have hclosed := h.isClosed_eq
  have hadmits := h.admits_eq terms.pair
  obtain ⟨⟨x, rfl⟩, hclose, hlist⟩ := h
  rw [Sandbox.create, Sandbox.create, hclosed, hadmits]
  split
  · exact .refused _
  · split
    · exact .refused _
    · split
      · exact .refused _
      · split
        · exact .refused _
        · refine .done ?_ _
          exact ⟨⟨x, rfl⟩, hclose, hlist⟩

theorem bump (h : s.Resembles t) (id : OrderId) : SameEffect (s.bump id) (t.bump id) := by
  rw [Sandbox.bump, Sandbox.bump, h.liveOffer_eq]
  cases s.liveOffer id with
  | error stop => exact .refused stop
  | ok offer =>
      obtain ⟨⟨x, rfl⟩, hclose, hlist⟩ := h
      exact .done ⟨⟨x, rfl⟩, hclose, hlist⟩ _

theorem take (h : s.Resembles t) (id : OrderId) (quantity : Wad) :
    SameEffect (s.take id quantity) (t.take id quantity) := by
  rw [Sandbox.take, Sandbox.take, h.isClosed_eq, h.liveOffer_eq]
  split
  · exact .refused _
  · cases s.liveOffer id with
    | error stop => exact .refused stop
    | ok offer =>
        simp only [bind, Except.bind]
        cases priceOf offer quantity with
        | error stop => exact .refused stop
        | ok given =>
            simp only
            split
            · exact .refused _
            · obtain ⟨⟨x, rfl⟩, hclose, hlist⟩ := h
              refine .done ?_ _
              exact ⟨⟨x, rfl⟩, hclose, hlist⟩

theorem kill (h : s.Resembles t) (id : OrderId) : SameEffect (s.kill id) (t.kill id) := by
  have hclosed := h.isClosed_eq
  have hlive := h.liveOffer_eq id
  obtain ⟨⟨x, rfl⟩, hclose, hlist⟩ := h
  have hsender : (s.setUp x).sender = s.sender := rfl
  rw [Sandbox.kill, Sandbox.kill, hlive, hclosed, hsender]
  cases s.liveOffer id with
  | error stop => exact .refused stop
  | ok offer =>
      simp only [bind, Except.bind]
      split
      · refine .done ?_ _
        exact ⟨⟨x, rfl⟩, hclose, hlist⟩
      · exact .refused _

/-- Only a matching market can be set up by a command, and it has the list of pairs. -/
theorem execute (h : s.Resembles t) {c : Command} (hc : c.isFor s.kind = true) :
    SameEffect (s.execute c) (t.execute c) := by
  cases c with
  | make terms => exact h.create terms
  | bump id => exact h.bump id
  | take id quantity => exact h.take id quantity
  | kill id => exact h.kill id
  | offer terms position =>
      have hlast : t.lastId = s.lastId := by
        obtain ⟨⟨x, rfl⟩, _⟩ := h
        rfl
      rw [Sandbox.execute, Sandbox.execute, hlast]
      split
      · exact .refused _
      · exact h.create terms
  | setBuyEnabled on =>
      obtain ⟨⟨x, rfl⟩, hclose, hlist⟩ := h
      refine .done ?_ _
      exact ⟨⟨{ x with buyEnabled := on }, rfl⟩, hclose, hlist⟩
  | setMatchingEnabled on =>
      obtain ⟨⟨x, rfl⟩, hclose, hlist⟩ := h
      refine .done ?_ _
      exact ⟨⟨{ x with matchingEnabled := on }, rfl⟩, hclose, hlist⟩
  | whitelist pair =>
      have hsame := h.whitelist (beq_iff_eq.mp hc)
      rw [Sandbox.execute, Sandbox.execute, hsame]
      obtain ⟨⟨x, rfl⟩, hclose, _⟩ := h
      split
      · exact .refused _
      · refine .done ?_ _
        exact ⟨⟨{ x with whitelist := x.whitelist.insert pair }, rfl⟩, hclose,
          fun _ => congrArg (·.insert pair) hsame⟩

theorem mine (h : s.Resembles t) (logs : List Log) : (s.mine logs).Resembles (t.mine logs) := by
  obtain ⟨⟨x, rfl⟩, hclose, hlist⟩ := h
  rw [mine_eq, mine_eq]
  exact ⟨⟨x, rfl⟩, hclose, hlist⟩

theorem transact (h : s.Resembles t) {command : Except Fault Command}
    (hc : ∀ c, command = .ok c → c.isFor s.kind = true) :
    (t.transact command).1 = (s.transact command).1 ∧
      (s.transact command).2.Resembles (t.transact command).2 := by
  have hstarted : s.started.Resembles t.started ∧ t.nextHash = s.nextHash ∧ t.block = s.block := by
    obtain ⟨⟨x, rfl⟩, hclose, hlist⟩ := h
    exact ⟨⟨⟨x, rfl⟩, hclose, hlist⟩, rfl, rfl⟩
  obtain ⟨hstarted, hhash, hblock⟩ := hstarted
  cases command with
  | error cause =>
      rw [transact_garbled, transact_garbled, hhash]
      exact ⟨rfl, hstarted.mine []⟩
  | ok c =>
      have heffect := hstarted.execute (hc c rfl)
      rw [transact_ok, transact_ok, hhash, hblock]
      generalize s.started.execute c = result at heffect ⊢
      generalize t.started.execute c = other at heffect ⊢
      cases heffect with
      | done hafter logs => exact ⟨rfl, hafter.mine logs⟩
      | refused stop =>
          cases stop with
          | fault cause => exact ⟨rfl, hstarted.mine []⟩
          | trapped trap => exact ⟨rfl, hstarted⟩

theorem submit (h : s.Resembles t) (intent : Intent) :
    (t.submit intent).1 = (s.submit intent).1 ∧
      (s.submit intent).2.Resembles (t.submit intent).2 := by
  have hplace : t.market = s.market ∧ t.kind = s.kind := by
    obtain ⟨⟨x, rfl⟩, _⟩ := h
    exact ⟨rfl, rfl⟩
  rw [Sandbox.submit, Sandbox.submit, hplace.1, hplace.2]
  split
  · exact ⟨rfl, h⟩
  · have hfor (c : Command)
        (hc : Command.ofCall s.kind intent.method intent.args = .ok c) : c.isFor s.kind = true :=
      Command.isFor_of_ofCall hc
    generalize Command.ofCall s.kind intent.method intent.args = command at hfor ⊢
    split
    · exact ⟨rfl, h⟩
    · exact h.transact hfor

theorem answer_eq (h : s.Resembles t) {q : Query} (hq : q.isFor s.kind = true)
    (hbuy : q ≠ .buyEnabled) (hmatching : q ≠ .matchingEnabled) : t.answer q = s.answer q := by
  cases q with
  | buyEnabled => exact absurd rfl hbuy
  | matchingEnabled => exact absurd rfl hmatching
  | isClosed => rw [answer, answer, h.isClosed_eq]
  | closeTime =>
      have hkind : s.kind ≠ .simple := bne_iff_ne.mp hq
      rw [answer, answer, h.closeTime hkind]
  | lastOfferId | offer =>
      obtain ⟨⟨x, rfl⟩, _⟩ := h
      rfl

theorem call_eq (h : s.Resembles t) (contract : Address) (method : String) (args : List Value)
    (hflag : s.kind = .matching → method ≠ "buyEnabled" ∧ method ≠ "matchingEnabled") :
    (t.call contract method args).1 = (s.call contract method args).1 := by
  have hplace : t.market = s.market ∧ t.kind = s.kind := by
    obtain ⟨⟨x, rfl⟩, _⟩ := h
    exact ⟨rfl, rfl⟩
  simp only [call, hplace.1, hplace.2]
  split
  · rfl
  · cases hread : Query.ofCall s.kind method args with
    | error cause => rfl
    | ok q =>
        obtain ⟨rfl, hq⟩ := Query.method_of_ofCall hread
        refine congrArg Except.ok (h.answer_eq hq ?_ ?_)
        · rintro rfl
          exact (hflag (beq_iff_eq.mp hq)).1 rfl
        · rintro rfl
          exact (hflag (beq_iff_eq.mp hq)).2 rfl

/-- A deed is answered alike, and what it leaves is alike again. -/
theorem undergo (h : s.Resembles t) (d : Deed) :
    ((s.kind = .matching → d.asksFlag = false) → t.answerTo d = s.answerTo d) ∧
      (s.undergo d).Resembles (t.undergo d) := by
  cases d with
  | approve | unsubscribe =>
      obtain ⟨⟨x, rfl⟩, hclose, hlist⟩ := h
      exact ⟨fun _ => rfl, ⟨x, rfl⟩, hclose, hlist⟩
  | subscribe contract event =>
      obtain ⟨⟨x, rfl⟩, hclose, hlist⟩ := h
      rw [undergo_subscribe, undergo_subscribe]
      refine ⟨fun _ => congrArg Answer.stream ?_, ⟨x, rfl⟩, hclose, hlist⟩
      have hmarket : (s.setUp x).market = s.market := rfl
      rw [subscribe, subscribe, hmarket]
      split <;> rfl
  | act a =>
      cases a with
      | submit intent =>
          obtain ⟨hresult, hafter⟩ := h.submit intent
          have hundergo (s : Sandbox) : s.undergo (.act (.submit intent)) = (s.submit intent).2 :=
            s.act_submit intent
          rw [hundergo, hundergo]
          exact ⟨fun _ => congrArg Answer.taken hresult, hafter⟩
      | call contract method args =>
          refine ⟨fun hflag => ?_, ?_⟩
          · have hasked := h.call_eq contract method args fun hkind => by
              simpa [Deed.asksFlag] using hflag hkind
            exact congrArg (fun r => Answer.reply ((r.map .values).mapError .fault)) hasked
          · obtain ⟨⟨x, rfl⟩, hclose, hlist⟩ := h
            exact ⟨⟨x, rfl⟩, hclose, hlist⟩
      | setCloseTime closeTime =>
          obtain ⟨⟨x, rfl⟩, _, hlist⟩ := h
          exact ⟨fun _ => rfl, ⟨{ x with closeTime }, rfl⟩, fun _ => rfl, hlist⟩
      | setFlags buyEnabled matchingEnabled =>
          obtain ⟨⟨x, rfl⟩, hclose, hlist⟩ := h
          exact ⟨fun _ => rfl, ⟨{ x with buyEnabled, matchingEnabled }, rfl⟩, hclose, hlist⟩
      | allowPair pair =>
          obtain ⟨⟨x, rfl⟩, hclose, hlist⟩ := h
          exact ⟨fun _ => rfl, ⟨{ x with whitelist := x.whitelist.insert pair }, rfl⟩, hclose,
            fun hkind => congrArg (·.insert pair) (hlist hkind)⟩
      | setSender | setTime | reserveIds | resetQueries | insert | insertAt | offer | approvals
      | summary | pastLogs =>
          obtain ⟨⟨x, rfl⟩, hclose, hlist⟩ := h
          exact ⟨fun _ => rfl, ⟨x, rfl⟩, hclose, hlist⟩

theorem undergoAll (h : s.Resembles t) (deeds : List Deed) :
    (s.undergoAll deeds).Resembles (t.undergoAll deeds) := by
  induction deeds generalizing s t with
  | nil => exact h
  | cons d rest ih => exact ih (h.undergo d).2

end Resembles

/-- Nobody can tell how a market is set up where its kind does not have the setting: whatever is
done to both alike, the next deed is answered alike. -/
theorem settings_do_not_leak (s : Sandbox) (x : Settings)
    (hclose : s.kind ≠ .simple → x.closeTime = s.closeTime)
    (hlist : s.kind = .matching → x.whitelist = s.whitelist) (deeds : List Deed) (d : Deed) :
    let one := s.undergoAll deeds
    let other := (s.setUp x).undergoAll deeds
    ((s.kind = .matching → d.asksFlag = false) → other.answerTo d = one.answerTo d) ∧
      ∃ y, other = one.setUp y := by
  intro one other
  have hsame : s.Resembles (s.setUp x) := ⟨⟨x, rfl⟩, hclose, hlist⟩
  have halike : one.Resembles other := hsame.undergoAll deeds
  have hanswer := (halike.undergo d).1
  rw [s.kind_undergoAll deeds] at hanswer
  exact ⟨hanswer, halike.same⟩

def trialSettings : Settings :=
  ⟨0, false, false, (∅ : Std.ExtTreeSet TokenPair).insert ⟨.zero, .zero⟩⟩

theorem settings_do_not_leak_of_trial :
    let deeds := .act (.setTime 9) :: trialDeeds
    let intent := (Command.take 1 ⟨.ofUInt64 1⟩).intent trial.market
    let one := trial.undergoAll deeds
    let other := (trial.setUp trialSettings).undergoAll deeds
    other.closeTime < other.now ∧ other.whitelist.isEmpty = false ∧
      (other.submit intent).1 = (one.submit intent).1 ∧ ∃ y, other = one.setUp y := by
  intro deeds intent one other
  obtain ⟨hanswer, hsame⟩ :=
    settings_do_not_leak trial trialSettings nofun nofun deeds (.act (.submit intent))
  exact ⟨by decide, by decide, Answer.taken.inj (hanswer nofun), hsame⟩

end Sandbox

end Barter
