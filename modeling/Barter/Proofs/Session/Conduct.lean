import Barter.Proofs.Client.Requests
import Barter.Proofs.Sandbox.Channels

namespace Barter

open Session

inductive Backend.Proceeds : Backend → Backend → Prop
  | sandbox (s : Sandbox) (deeds : List Deed) :
      Proceeds (.sandbox s) (.sandbox (s.undergoAll deeds))
  | playback (p q : Recorded Playback) : Proceeds (.playback p) (.playback q)

def Backend.undergo : Backend → Deed → Backend
  | .sandbox s, d => .sandbox (s.undergo d)
  | .playback p, _ => .playback p

namespace Backend.Proceeds

theorem refl (b : Backend) : b.Proceeds b := by
  cases b with
  | sandbox s => exact .sandbox s []
  | playback p => exact .playback p p

theorem trans {b c d : Backend} (hbc : b.Proceeds c) (hcd : c.Proceeds d) : b.Proceeds d := by
  cases hbc with
  | sandbox s deeds =>
      cases hcd with
      | sandbox _ more =>
          rw [← Sandbox.undergoAll_append]
          exact .sandbox s _
  | playback p q =>
      cases hcd with
      | playback _ r => exact .playback p r

theorem ledger_respects : Backend.ledger.Respects Backend.Proceeds where
  refl := refl
  trans := trans
  call contract method args b := by
    cases b with
    | sandbox s => exact .sandbox s [.act (.call contract method args)]
    | playback p => exact .playback p _
  submit intent b := by
    cases b with
    | sandbox s =>
        have h := Proceeds.sandbox s [.act (.submit intent)]
        have hafter : s.undergoAll [.act (.submit intent)] = (s.submit intent).2 :=
          s.act_submit intent
        rw [hafter] at h
        exact h
    | playback p => exact .playback p _
  pastLogs contract event blocks b := by
    cases b with
    | sandbox s => exact .sandbox s []
    | playback p => exact .playback p _
  subscribe contract event b := by
    cases b with
    | sandbox s => exact .sandbox s [.subscribe contract event]
    | playback p => exact .playback p _
  approve token spender name b := by
    cases b with
    | sandbox s => exact .sandbox s [.approve token spender]
    | playback p => exact .playback p _

theorem unsubscribe (b : Backend) (channel : Nat) : b.Proceeds (b.unsubscribe channel) := by
  cases b with
  | sandbox s => exact .sandbox s [.unsubscribe channel]
  | playback p => exact .playback p p

theorem forgetRequests (b : Backend) : b.Proceeds b.forgetRequests := by
  cases b with
  | sandbox s => exact .sandbox s []
  | playback p => exact .playback p _

theorem undergo (b : Backend) (d : Deed) : b.Proceeds (b.undergo d) := by
  cases b with
  | sandbox s => exact .sandbox s [d]
  | playback p => exact .playback p p

/-- Whatever is done, a handler's logs only grow at the end. -/
theorem logs_prefix {b c : Backend} (h : b.Proceeds c) (sub : Subscription) :
    sub.logs b <+: sub.logs c := by
  obtain ⟨kind, stream, aborted, delivered⟩ := sub
  cases stream with
  | ended logs => exact List.prefix_refl _
  | live channel =>
      cases h with
      | sandbox s deeds => exact s.sent_prefix_undergoAll deeds channel
      | playback p q => exact List.prefix_refl _

end Backend.Proceeds

namespace Session

variable (x : Session)

/-- A client works on the ledger through its requests only, and leaves the handlers alone. -/
theorem onClient_works (c : Client) (a : ClientAction) :
    (x.onClient c a).2 = x ∨
      ∃ (α : Type) (w : Work Backend α), w.Respects Backend.Proceeds ∧
        (x.onClient c a).2 = (x.work c w).2 := by
  have h := Backend.Proceeds.ledger_respects
  cases a with
  | describe => exact .inl rfl
  | lastOrderId => exact .inr ⟨_, _, h.lastOrderId c.address, rfl⟩
  | order id => exact .inr ⟨_, _, h.order c.address id, rfl⟩
  | orders => exact .inr ⟨_, _, h.orders c.address, rfl⟩
  | make terms => exact .inr ⟨_, _, h.make c.address c.kind terms, rfl⟩
  | makeSimply terms => exact .inr ⟨_, _, h.make c.address .simple terms, rfl⟩
  | makeAt terms position => exact .inr ⟨_, _, h.makeAt c.address terms position, rfl⟩
  | send command => exact .inr ⟨_, _, h.send c.address command, rfl⟩
  | position terms => exact .inr ⟨_, _, h.position c.address terms, rfl⟩
  | isBuyEnabled => exact .inr ⟨_, _, h.flag c.address .buyEnabled, rfl⟩
  | isMatchingEnabled => exact .inr ⟨_, _, h.flag c.address .matchingEnabled, rfl⟩
  | closeSeconds => exact .inr ⟨_, _, h.closeSeconds c.address, rfl⟩
  | closeTime => exact .inr ⟨_, _, h.closeTime c.address, rfl⟩
  | isClosed => exact .inr ⟨_, _, h.flag c.address .isClosed, rfl⟩
  | pastEvents kind blocks => exact .inr ⟨_, _, h.pastEvents c.address kind blocks, rfl⟩
  | approve tokens => exact .inr ⟨_, _, h.approveAll c.address c.kind tokens, rfl⟩

/-- What an action does to the ledger and the handlers of a session: the handlers stay as they
are, or there is one more that has not been given anything, or one of them is aborted. -/
inductive Acts : Session → Prop
  | kept {y : Session} (hledger : x.backend.Proceeds y.backend)
      (hsame : y.subscriptions = x.subscriptions) : Acts y
  | subscribed {y : Session} (kind : EventKind) (stream : Stream)
      (hledger : x.backend.Proceeds y.backend)
      (hmore : y.subscriptions = x.subscriptions ++ [⟨kind, stream, false, 0⟩]) : Acts y
  | aborted {y : Session} (index : Nat) (sub : Subscription)
      (hledger : x.backend.Proceeds y.backend) (hsub : x.subscriptions[index]? = some sub)
      (hset : y.subscriptions = x.subscriptions.set index { sub with aborted := true }) : Acts y

theorem acts_of_work {α : Type} (c : Client) {w : Work Backend α}
    (hw : w.Respects Backend.Proceeds) : x.Acts (x.work c w).2 :=
  .kept (hw ⟨c.absent, x.backend⟩) rfl

theorem act_acts (a : Action) : x.Acts (x.act a).2 := by
  have idle : x.Acts x := .kept (.refl _) rfl
  cases a with
  | addClient kind address => exact .kept (.refl _) rfl
  | finished => exact idle
  | useClient index =>
      simp only [act]
      split
      · exact .kept (.refl _) rfl
      · exact idle
  | client action =>
      cases hclient : x.client? with
      | none => simpa only [act, hclient] using idle
      | some c =>
          simp only [act, hclient]
          split
          · obtain hsame | ⟨α, w, hw, hwork⟩ := x.onClient_works c action
            · rw [hsame]
              exact idle
            · rw [hwork]
              exact x.acts_of_work c hw
          · exact idle
  | sandbox action =>
      cases hbackend : x.backend with
      | sandbox s =>
          simp only [act, hbackend]
          refine .kept ?_ rfl
          rw [hbackend]
          exact .sandbox s [.act action]
      | playback p => simpa only [act, hbackend] using idle
  | subscribe kind =>
      cases hclient : x.client? with
      | none => simpa only [act, hclient] using idle
      | some c =>
          have hw : (Client.subscribe Backend.ledger c.address kind).Respects Backend.Proceeds :=
            fun v => Backend.Proceeds.ledger_respects.subscribe _ _ v.ledger
          have hledger : x.backend.Proceeds
              (x.work c (Client.subscribe Backend.ledger c.address kind)).2.backend :=
            hw ⟨c.absent, x.backend⟩
          have hsubs : (x.work c (Client.subscribe Backend.ledger c.address kind)).2.subscriptions =
              x.subscriptions := rfl
          simp only [act, hclient]
          generalize x.work c (Client.subscribe Backend.ledger c.address kind) = done
            at hledger hsubs ⊢
          rcases done with ⟨cause | stream, after⟩
          · exact .kept hledger hsubs
          · exact .subscribed kind stream hledger (congrArg (· ++ _) hsubs)
  | unsubscribe index =>
      cases hsub : x.subscriptions[index]? with
      | none => simpa only [act, hsub] using idle
      | some sub =>
          simp only [act, hsub]
          refine .aborted index sub ?_ hsub rfl
          cases sub.stream with
          | live channel => exact .unsubscribe _ channel
          | ended => exact .refl _

end Session

end Barter
