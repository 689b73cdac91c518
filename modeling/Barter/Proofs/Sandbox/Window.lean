import Barter.Proofs.Sandbox.Deeds
import Mathlib.Data.List.Infix

namespace Barter.Sandbox

def lastLogs (mined : List Pending) (n : Nat) : List Log :=
  (mined.drop (mined.length - n)).flatMap Pending.logs

theorem lastLogs_suffix (mined : List Pending) {m n : Nat} (h : m ≤ n) :
    lastLogs mined m <:+ lastLogs mined n :=
  (List.drop_suffix_drop_left mined (Nat.sub_le_sub_left h _)).flatMap _

section

variable {s : Sandbox} {deeds : List Deed}

theorem toNat_block_of_mem_logs (h : s.BlocksSuffice deeds) {k : Nat} {p : Pending}
    (hp : (s.blocks deeds)[k]? = some p) {l : Log} (hl : l ∈ p.logs) :
    l.block.toNat = s.block.toNat + k := by
  obtain ⟨hk, _⟩ := List.getElem?_eq_some_iff.mp hp
  rw [(blocks_stamped hp).logs l hl, h.toNat_block (Nat.le_of_lt hk)]

/-- What is logged in a block bears its number, so that to go by the numbers is to count blocks. -/
theorem filter_logs_from (h : s.BlocksSuffice deeds) (first : Nat) :
    ((s.blocks deeds).flatMap Pending.logs).filter (fun l => first ≤ l.block.toNat) =
      ((s.blocks deeds).drop (first - s.block.toNat)).flatMap Pending.logs := by
  have holder : (((s.blocks deeds).take (first - s.block.toNat)).flatMap Pending.logs).filter
      (fun l => first ≤ l.block.toNat) = [] := by
    rw [List.filter_eq_nil_iff]
    intro l hl
    obtain ⟨p, hp, hlogs⟩ := List.mem_flatMap.mp hl
    obtain ⟨k, hk⟩ := List.getElem?_of_mem hp
    rw [List.getElem?_take] at hk
    split at hk
    next hlt =>
      have hblock := toNat_block_of_mem_logs h hk hlogs
      rw [decide_eq_true_eq]
      omega
    next => cases hk
  have hnewer : (((s.blocks deeds).drop (first - s.block.toNat)).flatMap Pending.logs).filter
      (fun l => first ≤ l.block.toNat) =
        ((s.blocks deeds).drop (first - s.block.toNat)).flatMap Pending.logs := by
    rw [List.filter_eq_self]
    intro l hl
    obtain ⟨p, hp, hlogs⟩ := List.mem_flatMap.mp hl
    obtain ⟨k, hk⟩ := List.getElem?_of_mem hp
    rw [List.getElem?_drop] at hk
    have hblock := toNat_block_of_mem_logs h hk hlogs
    rw [decide_eq_true_eq]
    omega
  -- the blocks before the window have numbers that are too low, those in it have not
  generalize first - s.block.toNat = older at holder hnewer ⊢
  calc
    _ = (((s.blocks deeds).take older ++ (s.blocks deeds).drop older).flatMap
          Pending.logs).filter (fun l => first ≤ l.block.toNat) := by
      rw [List.take_append_drop]
    _ = _ := by rw [List.flatMap_append, List.filter_append, holder, hnewer, List.nil_append]

end

/-- Who asks for an event in the last `n` blocks is told its logs from the transactions that went
through in them; one that was rejected counts as a block as well. -/
theorem pastLogs_exact (market : Address) (kind : MarketKind) (sender : Address) (now : UInt64)
    (deeds : List Deed) (event : String)
    (hcount : (Sandbox.new market kind sender now).BlocksSuffice deeds) :
    let s := Sandbox.new market kind sender now
    let t := s.undergoAll deeds
    (∀ n, ledger.pastLogs market event n t =
      (.ok ((lastLogs (s.blocks deeds) n.toNat).filter fun l => l.event = event), t)) ∧
    (∀ contract n, contract ≠ market → ledger.pastLogs contract event n t = (.ok [], t)) ∧
    ∀ m n, m ≤ n → t.pastLogs market event m <:+ t.pastLogs market event n := by
  intro s t
  have hmarket : t.market = market := s.market_undergoAll deeds
  have hlogs : t.logs = (s.blocks deeds).flatMap Pending.logs := s.logs_undergoAll deeds
  have hblock : t.block.toNat = 1 + (s.blocks deeds).length := hcount.toNat_block_undergoAll
  have hpast (n : UInt64) : t.pastLogs market event n =
      (lastLogs (s.blocks deeds) n.toNat).filter fun l => l.event = event := by
    have hwindow := filter_logs_from hcount (t.block.toNat - n.toNat)
    have holder : t.block.toNat - n.toNat - s.block.toNat = (s.blocks deeds).length - n.toNat := by
      have hfirst : s.block.toNat = 1 := rfl
      omega
    rw [holder] at hwindow
    rw [pastLogs, if_neg (Decidable.not_not.mpr hmarket.symm), lastLogs, ← hwindow, hlogs,
      List.filter_filter]
  refine ⟨fun n => ?_, fun contract n hcontract => ?_, fun m n hle => ?_⟩
  · exact congrArg (fun logs => (Except.ok logs, t)) (hpast n)
  · have hnone : t.pastLogs contract event n = [] := if_pos (hmarket.symm ▸ hcontract)
    exact congrArg (fun logs => (Except.ok logs, t)) hnone
  · rw [hpast, hpast]
    exact (lastLogs_suffix _ (UInt64.le_iff_toNat_le.mp hle)).filter _

theorem pastLogs_exact_of_trial :
    let t := trial.undergoAll trialDeeds
    (∀ n, ledger.pastLogs (Bytes.ofNat 20 9) "LogTake" n t = (.ok [], t)) ∧
      ledger.pastLogs trial.market "LogTake" 1 t = (.ok [], t) ∧
      ∃ fill, fill.event = "LogTake" ∧
        ledger.pastLogs trial.market "LogTake" 2 t = (.ok [fill], t) ∧
        [fill] <:+ t.pastLogs trial.market "LogTake" 3 := by
  intro t
  obtain ⟨hexact, helsewhere, hsuffix⟩ :=
    pastLogs_exact trial.market .simple trial.sender 0 trialDeeds "LogTake" (by decide)
  obtain ⟨fill, hfill⟩ : ∃ fill, (lastLogs (trial.blocks trialDeeds) 2).filter
      (fun l => l.event = "LogTake") = [fill] := ⟨_, rfl⟩
  have htold : ledger.pastLogs trial.market "LogTake" 2 t = (.ok [fill], t) :=
    (hexact 2).trans (congrArg (fun logs => (Except.ok logs, t)) hfill)
  have hlast : t.pastLogs trial.market "LogTake" 2 = [fill] :=
    Except.ok.inj (Prod.mk.inj htold).1
  have hmem : fill ∈ (lastLogs (trial.blocks trialDeeds) 2).filter
      (fun l => l.event = "LogTake") := hfill ▸ List.mem_singleton_self fill
  refine ⟨fun n => helsewhere _ n (by decide), hexact 1, fill, ?_, htold, ?_⟩
  · exact of_decide_eq_true (List.mem_filter.mp hmem).2
  · exact hlast ▸ hsuffix 2 3 (by decide)

end Barter.Sandbox
