import Barter.Proofs.Sandbox.Deeds
import Barter.Proofs.Sandbox.WellFormed
import Mathlib.Data.List.Nodup

namespace Barter

open Session

def Deed.IsProper : Deed → Prop
  | .act a => a.IsProper
  | _ => True

namespace Sandbox

def IdsGrow (s : Sandbox) : List Deed → Prop
  | [] => True
  | d :: rest => s.lastId ≤ (s.undergo d).lastId ∧ (s.undergo d).IdsGrow rest

theorem WellFormed.undergo {s : Sandbox} {d : Deed} (hs : s.WellFormed) (hproper : d.IsProper)
    (hids : s.lastId ≤ (s.undergo d).lastId) : (s.undergo d).WellFormed := by
  cases d with
  | act a => exact hs.act hproper hids
  | approve | unsubscribe => exact hs.of_offers_eq rfl (UInt64.le_refl _)
  | subscribe contract event =>
      rw [undergo_subscribe]
      exact hs.of_offers_eq rfl (UInt64.le_refl _)

theorem WellFormed.undergoAll {s : Sandbox} {deeds before : List Deed} (hs : s.WellFormed)
    (hproper : ∀ d ∈ deeds, d.IsProper) (hids : s.IdsGrow deeds) (hbefore : before <+: deeds) :
    (s.undergoAll before).WellFormed := by
  induction before generalizing s deeds with
  | nil => exact hs
  | cons d before ih =>
      obtain ⟨rest, rfl⟩ := hbefore
      obtain ⟨hd, hrest⟩ := List.forall_mem_cons.mp hproper
      exact ih (hs.undergo hd hids.1) hrest hids.2 (List.prefix_append before rest)

/-- What is hashed to name a transaction: the market, and then the count in eight bytes, the most
significant first. -/
def preimage (market : Address) (nonce : UInt64) : List UInt8 :=
  market.toList ++ (Bytes.ofNat 8 nonce.toNat).toList

theorem preimage_injective {market : Address} {a b : UInt64}
    (h : preimage market a = preimage market b) : a = b := by
  have hbytes : Bytes.ofNat 8 a.toNat = Bytes.ofNat 8 b.toNat :=
    Vector.toList_inj.mp (List.append_cancel_left h)
  have hnat := congrArg Bytes.toNat hbytes
  rw [Bytes.toNat_ofNat a.toNat_lt, Bytes.toNat_ofNat b.toNat_lt] at hnat
  exact UInt64.toNat_inj.mp hnat

def Stocked (s : Sandbox) : Prop :=
  ∀ id offer, s.offer? id = some offer → 0 < offer.payAmount.raw.toNat

def InStep (s : Sandbox) : Prop :=
  s.block = s.nonce + 1

theorem WellFormed.stocked {s : Sandbox} (hs : s.WellFormed) : s.Stocked :=
  fun id offer hoffer => (hs.positive id offer hoffer).pay_pos

section

variable {s : Sandbox} {deeds : List Deed}

theorem InStep.toNat_block (h : s.InStep) (hpos : 0 < s.block.toNat) :
    s.block.toNat = s.nonce.toNat + 1 := by
  have hlt := s.nonce.toNat_lt
  have hone : (1 : UInt64).toNat = 1 := rfl
  rw [h, UInt64.toNat_add, hone] at hpos ⊢
  omega

theorem InStep.undergo (h : s.InStep) (hstocked : s.Stocked) (d : Deed) : (s.undergo d).InStep := by
  cases s.undergo_undergoes d with
  | kept _ hpoint hnonce => rw [InStep, hpoint.block, hnonce, h]
  | trapped _ _ id offer hoffer hzero =>
      have hpos := hstocked id offer hoffer
      omega
  | closed _ _ hcloses => rw [InStep, hcloses.block, hcloses.nonce, h]

theorem InStep.undergoAll (h : s.InStep)
    (hstocked : ∀ before, before <+: deeds → (s.undergoAll before).Stocked) :
    (s.undergoAll deeds).InStep := by
  induction deeds generalizing s with
  | nil => exact h
  | cons d rest ih =>
      have hfirst : s.Stocked := hstocked [] List.nil_prefix
      exact ih (h.undergo hfirst d) fun before hbefore =>
        hstocked (d :: before) (List.cons_prefix_cons.mpr ⟨rfl, hbefore⟩)

/-- As long as transactions fill blocks, each is named after the number of its own. -/
theorem Closes.transaction_eq {t : Sandbox} {p : Pending} (h : s.Closes p t) (hs : s.InStep) :
    p.transaction = Keccak.hash (preimage s.market s.block) := by
  rw [h.transaction, h.nonce, hs]
  rfl

theorem blocks_transaction (h : s.InStep)
    (hstocked : ∀ before, before <+: deeds → (s.undergoAll before).Stocked) {k : Nat} {p : Pending}
    (hp : (s.blocks deeds)[k]? = some p) :
    p.transaction = Keccak.hash (preimage s.market (s.block + .ofNat k)) := by
  obtain ⟨before, d, rest, rfl, rfl, hcloses⟩ := blocks_closes hp
  have hstep : (s.undergoAll before).InStep := h.undergoAll fun older holder =>
    hstocked older (holder.trans (List.prefix_append before _))
  rw [← block_undergoAll, ← s.market_undergoAll before]
  exact hcloses.transaction_eq hstep

theorem receipts_increasing (h : s.BlocksSuffice deeds) :
    ((s.blocks deeds).filterMap Pending.receipt?).Pairwise fun a b => a.block < b.block := by
  rw [List.pairwise_filterMap, List.pairwise_iff_getElem]
  intro i j hi hj hlt a ha b hb
  have hfirst := (blocks_stamped (List.getElem?_eq_getElem hi)).receipt a ha
  have hsecond := (blocks_stamped (List.getElem?_eq_getElem hj)).receipt b hb
  rw [hfirst, hsecond, UInt64.lt_iff_toNat_lt, h.toNat_block (Nat.le_of_lt hi),
    h.toNat_block (Nat.le_of_lt hj)]
  exact Nat.add_lt_add_left hlt _

theorem preimages_nodup (h : s.BlocksSuffice deeds) (market : Address) :
    ((List.range (s.blocks deeds).length).map fun k =>
      preimage market (s.block + .ofNat k)).Nodup := by
  refine List.Nodup.map_on (fun i hi j hj heq => ?_) List.nodup_range
  have hnumber := congrArg UInt64.toNat (preimage_injective heq)
  rw [h.toNat_block (Nat.le_of_lt (List.mem_range.mp hi)),
    h.toNat_block (Nat.le_of_lt (List.mem_range.mp hj))] at hnumber
  exact Nat.add_left_cancel hnumber

end

theorem submit_refused {s : Sandbox} {intent : Intent}
    (h : intent.contract ≠ s.market ∨ ¬ s.kind.HasMethod intent.method) :
    ∃ fault, s.submit intent = (.error (.fault fault), s) := by
  have hhandles := s.submit_handles intent
  rcases hsubmit : s.submit intent with ⟨result, after⟩
  rw [hsubmit] at hhandles
  cases hhandles with
  | elsewhere | unknown => exact ⟨_, rfl⟩
  | garbled hhere hhas | rejected hhere hhas | trapped hhere hhas | mined hhere hhas =>
      rcases h with hcontract | hnot
      · exact absurd hhere hcontract
      · exact absurd hhas hnot

/-- The number of the block at work is one more than the count of transactions, which are named by
the hashes of different texts; an intent that is turned away counts for nothing. -/
theorem numbers_in_step (market : Address) (kind : MarketKind) (sender : Address) (now : UInt64)
    (deeds : List Deed)
    (hstocked : ∀ before, before <+: deeds →
      ((Sandbox.new market kind sender now).undergoAll before).Stocked)
    (hcount : (Sandbox.new market kind sender now).BlocksSuffice deeds) :
    let s := Sandbox.new market kind sender now
    let preimages := (List.range (s.blocks deeds).length).map fun k =>
      preimage market (1 + .ofNat k)
    (∀ before, before <+: deeds →
      (s.undergoAll before).block.toNat = (s.undergoAll before).nonce.toNat + 1) ∧
    ((s.blocks deeds).filterMap Pending.receipt?).Pairwise (fun a b => a.block < b.block) ∧
    (s.blocks deeds).map Pending.transaction = preimages.map Keccak.hash ∧
    preimages.Nodup ∧
    ((∀ a ∈ preimages, ∀ b ∈ preimages, Keccak.hash a = Keccak.hash b → a = b) →
      ((s.blocks deeds).map Pending.transaction).Nodup) ∧
    (∀ p ∈ s.blocks deeds, ∀ r, p.receipt? = some r → r.transaction = p.transaction ∧
      ∀ l ∈ r.logs, l.transaction = r.transaction ∧ l.block = r.block) ∧
    ∀ before, before <+: deeds → ∀ intent,
      intent.contract ≠ market ∨ ¬ kind.HasMethod intent.method →
      ∃ fault,
        (s.undergoAll before).submit intent = (.error (.fault fault), s.undergoAll before) := by
  intro s preimages
  have hstart : s.InStep := rfl
  have hnames : (s.blocks deeds).map Pending.transaction = preimages.map Keccak.hash := by
    refine List.ext_getElem (by simp [preimages]) fun k hk _ => ?_
    rw [List.length_map] at hk
    have hname : (s.blocks deeds)[k].transaction = Keccak.hash (preimage market (1 + .ofNat k)) :=
      blocks_transaction hstart hstocked (List.getElem?_eq_getElem hk)
    simpa [preimages] using hname
  refine ⟨fun before hbefore => ?_, receipts_increasing hcount, hnames,
    preimages_nodup hcount market, fun hinjective => ?_, fun p hp r hr => ?_,
    fun before hbefore intent hrefused => ?_⟩
  · obtain ⟨rest, rfl⟩ := hbefore
    have hblock : (s.undergoAll before).block.toNat = 1 + (s.blocks before).length :=
      hcount.of_append.toNat_block_undergoAll
    have hstep : (s.undergoAll before).InStep := hstart.undergoAll fun older holder =>
      hstocked older (holder.trans (List.prefix_append before rest))
    exact hstep.toNat_block (by omega)
  · rw [hnames]
    exact (preimages_nodup hcount market).map_on hinjective
  · obtain ⟨k, hk⟩ := List.getElem?_of_mem hp
    obtain ⟨before, d, rest, rfl, _, hcloses⟩ := blocks_closes hk
    obtain ⟨htransaction, hblock, hlogs⟩ := hcloses.receipt r hr
    rw [htransaction, hblock]
    exact ⟨rfl, hlogs⟩
  · refine submit_refused ?_
    rwa [market_undergoAll, kind_undergoAll]

theorem numbers_in_step_of_trial :
    let t := trial.undergoAll trialDeeds
    t.block.toNat = t.nonce.toNat + 1 ∧
      (∃ made taken, (trial.blocks trialDeeds).filterMap Pending.receipt? = [made, taken] ∧
        made.block < taken.block) ∧
      (trial.blocks trialDeeds).map Pending.transaction =
        [Keccak.hash (preimage trial.market 1), Keccak.hash (preimage trial.market 2),
          Keccak.hash (preimage trial.market 3)] ∧
      ∃ fault, t.submit ⟨trial.market, "mint", []⟩ = (.error (.fault fault), t) := by
  intro t
  have hproper : ∀ d ∈ trialDeeds, d.IsProper := by
    simp [trialDeeds, Deed.IsProper, SandboxAction.IsProper]
  have hids : trial.IdsGrow trialDeeds :=
    ⟨by decide, by decide, by decide, by decide, by decide, trivial⟩
  obtain ⟨hcounts, hblocks, hnames, _, _, _, hrefused⟩ :=
    numbers_in_step trial.market .simple trial.sender 0 trialDeeds
      (fun _ hbefore => ((wellFormed_new _ _ _ _).undergoAll hproper hids hbefore).stocked)
      (by decide)
  refine ⟨hcounts _ (List.prefix_refl _), ?_, hnames, hrefused _ (List.prefix_refl _) _ (.inr ?_)⟩
  · obtain ⟨made, taken, hreceipts⟩ : ∃ made taken,
        (trial.blocks trialDeeds).filterMap Pending.receipt? = [made, taken] := ⟨_, _, rfl⟩
    have hpair : [made, taken].Pairwise fun a b => a.block < b.block := hreceipts ▸ hblocks
    exact ⟨made, taken, hreceipts, List.rel_of_pairwise_cons hpair List.mem_cons_self⟩
  · rintro ⟨c, _, hmethod⟩
    cases c <;> simp [Command.method] at hmethod

end Sandbox

end Barter
