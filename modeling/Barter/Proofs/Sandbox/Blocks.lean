import Barter.Proofs.Sandbox.Run

namespace Barter.Sandbox

def mined (s : Sandbox) : List Move → Nat
  | [] => 0
  | m :: rest => (s.fillsBlock m).toNat + (s.move m).mined rest

inductive Fills (s : Sandbox) (m : Move) : Prop
  | nothing (hfills : s.fillsBlock m = false) (hlogs : s.receiptLogs m = [])
      (hblock : (s.move m).block = s.block)
  | block (hfills : s.fillsBlock m = true) (hat : ∀ l ∈ s.receiptLogs m, l.block = s.block)
      (hfew : (s.receiptLogs m).Pairwise fun _ _ => False)
      (hblock : (s.move m).block = s.block + 1)

theorem move_fills (s : Sandbox) (m : Move) : s.Fills m := by
  cases s.move_moves m with
  | idle hlogs _ hfills hblock => exact .nothing hfills hlogs hblock
  | blank hlogs _ hfills hblock =>
      refine .block hfills ?_ ?_ hblock
      · simp [hlogs]
      · simp [hlogs]
  | logged after log hexec hlogs hafter hfills =>
      refine .block hfills ?_ ?_ ?_
      · rw [hlogs]
        exact hexec.log_block
      · rw [hlogs]
        exact List.pairwise_singleton _ _
      · rw [hafter, mine_eq, hexec.frame.2.1]
        rfl

theorem logsOf_of_mined_eq_zero {s : Sandbox} {moves : List Move} (h : s.mined moves = 0) :
    s.logsOf moves = [] := by
  induction moves generalizing s with
  | nil => rfl
  | cons m rest ih =>
      obtain ⟨hm, hrest⟩ := Nat.add_eq_zero_iff.mp h
      cases s.move_fills m with
      | nothing _ hlogs => rw [logsOf, hlogs, ih hrest, List.append_nil]
      | block hfills => simp [hfills] at hm

/-- As long as blocks can be counted, every log has a block to itself, and a later one a later
block. -/
theorem logs_ordered {s : Sandbox} {moves : List Move}
    (h : s.block.toNat + s.mined moves ≤ UInt64.size) :
    (s.logsOf moves).Pairwise (fun a b => a.block < b.block) ∧
      ∀ l ∈ s.logsOf moves, s.block ≤ l.block := by
  induction moves generalizing s with
  | nil => exact ⟨.nil, nofun⟩
  | cons m rest ih =>
      rw [mined] at h
      cases s.move_fills m with
      | nothing hfills hlogs hblock =>
          rw [logsOf, hlogs, List.nil_append, ← hblock]
          exact ih (by rw [hblock]; omega)
      | block hfills hat hfew hblock =>
          rw [logsOf]
          have hone : s.block.toNat + (s.move m).mined rest + 1 ≤ UInt64.size := by
            simp only [hfills, Bool.toNat_true] at h
            omega
          -- the count of blocks may start again from zero behind the last log, but not before it
          by_cases hrest : (s.move m).mined rest = 0
          · rw [logsOf_of_mined_eq_zero hrest, List.append_nil]
            exact ⟨hfew.imp False.elim, fun l hl => (hat l hl).symm ▸ UInt64.le_refl _⟩
          · have hnext : (s.move m).block.toNat = s.block.toNat + 1 := by
              rw [hblock, UInt64.toNat_add]
              exact Nat.mod_eq_of_lt (by simp only [UInt64.size] at hone; simp; omega)
            obtain ⟨hpairs, hle⟩ := ih (by rw [hnext]; omega)
            have hlt : s.block < (s.move m).block := by
              rw [UInt64.lt_iff_toNat_lt, hnext]
              exact Nat.lt_succ_self _
            have hlater : ∀ l ∈ (s.move m).logsOf rest, s.block < l.block := fun l hl =>
              UInt64.lt_of_lt_of_le hlt (hle l hl)
            refine ⟨List.pairwise_append.mpr ⟨hfew.imp False.elim, hpairs, ?_⟩, ?_⟩
            · intro a ha b hb
              rw [hat a ha]
              exact hlater b hb
            · intro l hl
              rcases List.mem_append.mp hl with hl | hl
              · rw [hat l hl]
                exact UInt64.le_refl _
              · exact UInt64.le_of_lt (hlater l hl)

theorem block_run_le (s : Sandbox) (moves : List Move) :
    (s.run moves).block.toNat ≤ s.block.toNat + s.mined moves := by
  induction moves generalizing s with
  | nil => exact Nat.le_refl _
  | cons m rest ih =>
      have hrest := ih (s.move m)
      rw [run_cons, mined]
      cases s.move_fills m with
      | nothing _ _ hblock =>
          rw [hblock] at hrest
          omega
      | block hfills _ _ hblock =>
          have hnext : (s.block + 1).toNat ≤ s.block.toNat + 1 := by
            rw [UInt64.toNat_add]
            exact Nat.mod_le _ _
          rw [hblock] at hrest
          rw [hfills, Bool.toNat_true]
          omega

end Barter.Sandbox
