import Barter.Proofs.Sandbox.Run
import Barter.Session.Run

namespace Barter.Sandbox

open Session

def act (s : Sandbox) (a : SandboxAction) : Sandbox :=
  (onSandbox s a).2

def perform (s : Sandbox) (actions : List SandboxAction) : Sandbox :=
  actions.foldl act s

def CountsOn (s : Sandbox) : List SandboxAction → Prop
  | [] => True
  | a :: rest => s.lastId ≤ (s.act a).lastId ∧ (s.act a).CountsOn rest

inductive Acts (s : Sandbox) : SandboxAction → Sandbox → Prop
  | submitted (intent : Intent) : Acts s (.submit intent) (s.submit intent).2
  | inserted (offer : Offer) : Acts s (.insert offer) (s.insert offer)
  | placed (id : OrderId) (offer : Offer) : Acts s (.insertAt id offer) (s.insertAt id offer)
  | kept {a : SandboxAction} {t : Sandbox} (hmarket : t.market = s.market)
      (hoffers : t.offers = s.offers) (hlast : s.lastId ≤ t.lastId) : Acts s a t

theorem le_lastId_reserveIds (s : Sandbox) (id : OrderId) :
    s.lastId ≤ (s.reserveIds id).lastId ∧ id ≤ (s.reserveIds id).lastId := by
  unfold reserveIds
  by_cases h : s.lastId ≤ id
  · rw [show max s.lastId id = id from if_pos h]
    exact ⟨h, UInt64.le_refl _⟩
  · rw [show max s.lastId id = s.lastId from if_neg h]
    exact ⟨UInt64.le_refl _, UInt64.le_of_lt (UInt64.not_le.mp h)⟩

theorem insert_eq_insertAt {s : Sandbox} (h : s.lastId ≤ s.nextId) (offer : Offer) :
    s.insert offer = s.insertAt s.nextId offer := by
  have hmax : max s.lastId s.nextId = s.nextId := if_pos h
  rw [insertAt, reserveIds, hmax]
  rfl

theorem act_submit (s : Sandbox) (intent : Intent) :
    s.act (.submit intent) = (s.submit intent).2 := by
  rcases hsubmit : s.submit intent with ⟨result, after⟩
  simp only [act, onSandbox, hsubmit]
  cases result with
  | ok pending => rfl
  | error stop => cases stop <;> rfl

theorem act_acts (s : Sandbox) (a : SandboxAction) : s.Acts a (s.act a) := by
  cases a with
  | submit intent =>
      rw [act_submit]
      exact .submitted intent
  | insert offer => exact .inserted offer
  | insertAt id offer => exact .placed id offer
  | reserveIds id => exact .kept rfl rfl (s.le_lastId_reserveIds id).1
  | setSender | setTime | setCloseTime | setFlags | allowPair | resetQueries | offer | approvals
  | summary | call | pastLogs => exact .kept rfl rfl (UInt64.le_refl _)

theorem market_act (s : Sandbox) (a : SandboxAction) : (s.act a).market = s.market := by
  have h := s.act_acts a
  generalize s.act a = t at h ⊢
  cases h with
  | submitted intent => exact s.market_move (.submit intent)
  | inserted | placed => rfl
  | kept hmarket => exact hmarket

end Barter.Sandbox
