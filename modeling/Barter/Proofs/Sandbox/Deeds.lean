import Barter.Proofs.Sandbox.Actions
import Barter.Proofs.Sandbox.Aside

namespace Barter

open Session

/-- All that can be done to a sandbox: an action on its market, or that somebody begins or ends to
listen to it. -/
inductive Deed where
  | act (a : SandboxAction)
  | approve (token spender : Address)
  | subscribe (contract : Address) (event : String)
  | unsubscribe (channel : Nat)

namespace Sandbox

def undergo (s : Sandbox) : Deed → Sandbox
  | .act a => s.act a
  | .approve token spender => s.approve token spender
  | .subscribe contract event => (s.subscribe contract event).2
  | .unsubscribe channel => s.unsubscribe channel

def undergoAll (s : Sandbox) (deeds : List Deed) : Sandbox :=
  deeds.foldl undergo s

def taken? (s : Sandbox) : Deed → Option Pending
  | .act (.submit intent) => (s.submit intent).1.toOption
  | _ => none

/-- The transactions that were taken in, which are one for each block that was mined, the first
block first. -/
def blocks (s : Sandbox) : List Deed → List Pending
  | [] => []
  | d :: rest => (s.taken? d).toList ++ (s.undergo d).blocks rest

def BlocksSuffice (s : Sandbox) (deeds : List Deed) : Prop :=
  s.block.toNat + (s.blocks deeds).length < UInt64.size

instance (s : Sandbox) (deeds : List Deed) : Decidable (s.BlocksSuffice deeds) :=
  inferInstanceAs (Decidable (_ < _))

theorem undergo_subscribe (s : Sandbox) (contract : Address) (event : String) :
    s.undergo (.subscribe contract event) = s.aside s.queries
      (if contract = s.market then s.channels ++ [⟨event, true, []⟩] else s.channels) := by
  by_cases hhere : contract = s.market
  · have hnew : s.undergo (.subscribe contract event) =
        { s with channels := s.channels ++ [⟨event, true, []⟩] } :=
      congrArg Prod.snd (if_neg (Decidable.not_not.mpr hhere))
    rw [if_pos hhere, hnew]
    rfl
  · have hsame : s.undergo (.subscribe contract event) = s := congrArg Prod.snd (if_pos hhere)
    rw [if_neg hhere, hsame]
    rfl

theorem undergoAll_append (s : Sandbox) (before rest : List Deed) :
    s.undergoAll (before ++ rest) = (s.undergoAll before).undergoAll rest :=
  List.foldl_append

theorem blocks_append (s : Sandbox) (before rest : List Deed) :
    s.blocks (before ++ rest) = s.blocks before ++ (s.undergoAll before).blocks rest := by
  induction before generalizing s with
  | nil => rfl
  | cons d before ih => rw [List.cons_append, blocks, blocks, ih, List.append_assoc]; rfl

structure Closes (s : Sandbox) (p : Pending) (t : Sandbox) : Prop where
  market : t.market = s.market
  kind : t.kind = s.kind
  block : t.block = s.block + 1
  nonce : t.nonce = s.nonce + 1
  logs : t.logs = s.logs ++ p.logs
  transaction : p.transaction = transactionHash s.market t.nonce
  receipt : ∀ r, p.receipt? = some r →
    r.transaction = p.transaction ∧ r.block = s.block ∧
      ∀ l ∈ r.logs, l.transaction = p.transaction ∧ l.block = s.block

structure SamePoint (s t : Sandbox) : Prop where
  market : t.market = s.market
  kind : t.kind = s.kind
  block : t.block = s.block
  logs : t.logs = s.logs

/-- What a deed does to history: nothing, or it fills a block, or it divides by zero and has used
up a nonce. -/
inductive Undergoes (s : Sandbox) (d : Deed) : Prop
  | kept (htaken : s.taken? d = none) (hpoint : s.SamePoint (s.undergo d))
      (hnonce : (s.undergo d).nonce = s.nonce)
  | trapped (htaken : s.taken? d = none) (hpoint : s.SamePoint (s.undergo d)) (id : OrderId)
      (offer : Offer) (hoffer : s.offer? id = some offer) (hzero : offer.payAmount.raw.toNat = 0)
  | closed (p : Pending) (htaken : s.taken? d = some p) (h : s.Closes p (s.undergo d))

theorem Executes.nonce {s after : Sandbox} {logs : List Log} (h : s.Executes after logs) :
    after.nonce = s.nonce := by
  cases h with
  | made | bumped | taken | killed | configured => rfl

theorem Executes.log_transaction {s after : Sandbox} {logs : List Log} (h : s.Executes after logs) :
    ∀ l ∈ logs, l.transaction = transactionHash s.market s.nonce := by
  cases h with
  | configured => simp
  | made | bumped | taken | killed => simp [announce, recordFill, stamp]

theorem closes_rejected (s : Sandbox) (cause : Fault) :
    s.Closes ⟨s.nextHash, some (.error cause)⟩ (s.started.mine []) where
  market := rfl
  kind := rfl
  block := rfl
  nonce := rfl
  logs := (List.append_nil _).symm
  transaction := rfl
  receipt := nofun

theorem Executes.closes {s after : Sandbox} {logs : List Log} (h : s.started.Executes after logs) :
    s.Closes ⟨s.nextHash, some (.ok ⟨s.nextHash, s.block, logs⟩)⟩ (after.mine logs) := by
  obtain ⟨hmarket, hblock, hlogs⟩ := h.frame
  have hnonce := h.nonce
  rw [mine_eq]
  refine ⟨hmarket, h.kind, congrArg (· + 1) hblock, hnonce, congrArg (· ++ logs) hlogs,
    congrArg (transactionHash s.market) hnonce.symm, fun r hr => ?_⟩
  obtain rfl := Option.some.inj hr
  exact ⟨rfl, rfl, fun l hl => ⟨h.log_transaction l hl, h.log_block l hl⟩⟩

theorem submit_undergoes (s : Sandbox) (intent : Intent) :
    s.Undergoes (.act (.submit intent)) := by
  have hafter : s.undergo (.act (.submit intent)) = (s.submit intent).2 := s.act_submit intent
  have htaken : s.taken? (.act (.submit intent)) = (s.submit intent).1.toOption := rfl
  have h := s.submit_handles intent
  generalize (s.submit intent).1 = result at h htaken
  generalize (s.submit intent).2 = after at h hafter
  cases h with
  | elsewhere | unknown =>
      refine .kept htaken ?_ (congrArg Sandbox.nonce hafter)
      rw [hafter]
      exact ⟨rfl, rfl, rfl, rfl⟩
  | garbled _ _ cause =>
      refine .closed _ htaken ?_
      rw [hafter]
      exact s.closes_rejected _
  | rejected _ _ _ _ cause =>
      refine .closed _ htaken ?_
      rw [hafter]
      exact s.closes_rejected _
  | trapped _ _ id _ offer _ hoffer hzero =>
      refine .trapped htaken ?_ id offer hoffer hzero
      rw [hafter]
      exact ⟨rfl, rfl, rfl, rfl⟩
  | mined _ _ c _ done logs hexec =>
      refine .closed _ htaken ?_
      rw [hafter]
      exact (executes_of_execute hexec).closes

theorem undergo_undergoes (s : Sandbox) (d : Deed) : s.Undergoes d := by
  cases d with
  | approve | unsubscribe => exact .kept rfl ⟨rfl, rfl, rfl, rfl⟩ rfl
  | subscribe contract event =>
      have hafter := s.undergo_subscribe contract event
      refine .kept rfl ?_ (hafter ▸ rfl)
      rw [hafter]
      exact ⟨rfl, rfl, rfl, rfl⟩
  | act a =>
      cases a with
      | submit intent => exact s.submit_undergoes intent
      | setSender | setTime | setCloseTime | setFlags | allowPair | reserveIds | resetQueries
      | insert | insertAt | offer | approvals | summary | call | pastLogs =>
          exact .kept rfl ⟨rfl, rfl, rfl, rfl⟩ rfl

theorem market_undergo (s : Sandbox) (d : Deed) : (s.undergo d).market = s.market := by
  cases s.undergo_undergoes d with
  | kept _ hpoint | trapped _ hpoint => exact hpoint.market
  | closed _ _ h => exact h.market

theorem kind_undergo (s : Sandbox) (d : Deed) : (s.undergo d).kind = s.kind := by
  cases s.undergo_undergoes d with
  | kept _ hpoint | trapped _ hpoint => exact hpoint.kind
  | closed _ _ h => exact h.kind

theorem market_undergoAll (s : Sandbox) (deeds : List Deed) :
    (s.undergoAll deeds).market = s.market := by
  induction deeds generalizing s with
  | nil => rfl
  | cons d rest ih => exact (ih _).trans (s.market_undergo d)

theorem kind_undergoAll (s : Sandbox) (deeds : List Deed) :
    (s.undergoAll deeds).kind = s.kind := by
  induction deeds generalizing s with
  | nil => rfl
  | cons d rest ih => exact (ih _).trans (s.kind_undergo d)

/-- History is made of the receipts. -/
theorem logs_undergoAll (s : Sandbox) (deeds : List Deed) :
    (s.undergoAll deeds).logs = s.logs ++ (s.blocks deeds).flatMap Pending.logs := by
  induction deeds generalizing s with
  | nil => exact (List.append_nil _).symm
  | cons d rest ih =>
      refine (ih (s.undergo d)).trans ?_
      rw [blocks, List.flatMap_append]
      cases s.undergo_undergoes d with
      | kept htaken hpoint | trapped htaken hpoint => rw [htaken, hpoint.logs]; rfl
      | closed p htaken h => rw [htaken, h.logs, List.append_assoc]; simp

theorem block_undergoAll (s : Sandbox) (deeds : List Deed) :
    (s.undergoAll deeds).block = s.block + .ofNat (s.blocks deeds).length := by
  induction deeds generalizing s with
  | nil => exact (UInt64.add_zero _).symm
  | cons d rest ih =>
      refine (ih (s.undergo d)).trans ?_
      rw [blocks, List.length_append]
      cases s.undergo_undergoes d with
      | kept htaken hpoint | trapped htaken hpoint => rw [htaken, hpoint.block]; simp
      | closed p htaken h =>
          rw [htaken, h.block, UInt64.add_assoc, UInt64.ofNat_add]
          rfl

structure Stamped (p : Pending) (block : UInt64) : Prop where
  receipt : ∀ r, p.receipt? = some r → r.block = block
  logs : ∀ l ∈ p.logs, l.block = block

theorem Closes.stamped {s t : Sandbox} {p : Pending} (h : s.Closes p t) : Stamped p s.block := by
  refine ⟨fun r hr => (h.receipt r hr).2.1, fun l hl => ?_⟩
  rw [Pending.logs] at hl
  cases hreceipt : p.receipt? with
  | none => rw [hreceipt] at hl; cases hl
  | some r =>
      rw [hreceipt] at hl
      exact ((h.receipt r hreceipt).2.2 l hl).2

/-- Every block is filled by one deed of the run, on a market that has come so far. -/
theorem blocks_closes {s : Sandbox} {deeds : List Deed} {k : Nat} {p : Pending}
    (h : (s.blocks deeds)[k]? = some p) :
    ∃ before d rest, deeds = before ++ d :: rest ∧ (s.blocks before).length = k ∧
      (s.undergoAll before).Closes p ((s.undergoAll before).undergo d) := by
  induction deeds generalizing s k with
  | nil => cases h
  | cons d rest ih =>
      -- a block of the rest comes after the one that `d` may have filled
      have later {k : Nat} (h : ((s.undergo d).blocks rest)[k]? = some p) :
          ∃ before e after, d :: rest = before ++ e :: after ∧
            (s.blocks before).length = (s.taken? d).toList.length + k ∧
            (s.undergoAll before).Closes p ((s.undergoAll before).undergo e) := by
        obtain ⟨before, e, after, rfl, rfl, hcloses⟩ := ih h
        exact ⟨d :: before, e, after, rfl, List.length_append, hcloses⟩
      rw [blocks] at h
      cases s.undergo_undergoes d with
      | kept htaken | trapped htaken =>
          simp only [htaken, Option.toList_none, List.nil_append] at h
          simpa only [htaken, Option.toList_none, List.length_nil, Nat.zero_add] using later h
      | closed first htaken hcloses =>
          simp only [htaken, Option.toList_some, List.singleton_append] at h
          cases k with
          | zero =>
              obtain rfl := Option.some.inj h
              exact ⟨[], d, rest, rfl, rfl, hcloses⟩
          | succ k =>
              simpa only [htaken, Option.toList_some, List.length_singleton, Nat.add_comm 1]
                using later h

theorem blocks_stamped {s : Sandbox} {deeds : List Deed} {k : Nat} {p : Pending}
    (h : (s.blocks deeds)[k]? = some p) : Stamped p (s.block + .ofNat k) := by
  obtain ⟨before, d, _, _, rfl, hcloses⟩ := blocks_closes h
  rw [← block_undergoAll]
  exact hcloses.stamped

section

variable {s : Sandbox} {before rest deeds : List Deed}

theorem BlocksSuffice.toNat_block {k : Nat} (h : s.BlocksSuffice deeds)
    (hk : k ≤ (s.blocks deeds).length) : (s.block + .ofNat k).toNat = s.block.toNat + k := by
  have hfits : s.block.toNat + (s.blocks deeds).length < UInt64.size := h
  rw [UInt64.toNat_add, UInt64.toNat_ofNat_of_lt' (by omega)]
  exact Nat.mod_eq_of_lt (Nat.lt_of_le_of_lt (Nat.add_le_add_left hk _) hfits)

theorem BlocksSuffice.toNat_block_undergoAll (h : s.BlocksSuffice deeds) :
    (s.undergoAll deeds).block.toNat = s.block.toNat + (s.blocks deeds).length := by
  rw [block_undergoAll, h.toNat_block (Nat.le_refl _)]

theorem BlocksSuffice.of_append (h : s.BlocksSuffice (before ++ rest)) :
    s.BlocksSuffice before := by
  rw [BlocksSuffice, blocks_append, List.length_append] at h
  exact Nat.lt_of_le_of_lt (Nat.add_le_add_left (Nat.le_add_right _ _) _) h

end

def trialDeeds : List Deed :=
  [.act (.submit ((Command.make trialTerms).intent trial.market)),
    .subscribe trial.market "LogTake",
    .act (.submit ((Command.take 1 ⟨.ofUInt64 1⟩).intent trial.market)),
    .act (.submit ((Command.kill 2).intent trial.market)),
    .act (.submit ⟨trial.market, "mint", []⟩)]

end Sandbox

end Barter
