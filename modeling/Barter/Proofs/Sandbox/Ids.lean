import Barter.Proofs.Sandbox.Life

namespace Barter.Sandbox

open History

def Issued (s : Sandbox) : Prop :=
  ∀ id, s.offer? id ≠ none → id ≤ s.lastId

theorem issued_new (market : Address) (kind : MarketKind) (sender : Address) (now : UInt64) :
    (Sandbox.new market kind sender now).Issued := by
  intro id hlive
  simp [offer?, Sandbox.new] at hlive

theorem lt_nextId {s : Sandbox} (h : s.lastId ≤ s.nextId) : s.lastId < s.nextId := by
  have hnext : s.nextId.toNat = (s.lastId.toNat + 1) % 2 ^ 64 := UInt64.toNat_add ..
  have hlt := s.lastId.toNat_lt
  rw [UInt64.le_iff_toNat_le, hnext] at h
  rw [UInt64.lt_iff_toNat_lt, hnext]
  omega

theorem Writes.id_le {s after : Sandbox} {l : Log} {id : OrderId} (h : s.Writes after l id)
    (hs : s.Issued) (hids : s.lastId ≤ after.lastId) : id ≤ after.lastId := by
  rcases h.ids with ⟨_, hid, hlast⟩ | ⟨hnot, hlast⟩
  · rw [hlast, hid]
    exact UInt64.le_refl _
  · refine UInt64.le_trans (hs id ?_) hids
    intro hnone
    have hc := h.chapter
    rw [hnone] at hc
    exact hnot hc.isOf_of_none

theorem Issued.move {s : Sandbox} {m : Move} (hs : s.Issued)
    (hids : s.lastId ≤ (s.move m).lastId) : (s.move m).Issued := by
  intro id hlive
  cases hlogs : s.receiptLogs m with
  | nil =>
      rw [(move_quiet hlogs).offer?_eq] at hlive
      exact UInt64.le_trans (hs id hlive) hids
  | cons l rest =>
      obtain ⟨_, written, hw⟩ := s.move_writes m l (by simp [hlogs])
      by_cases hid : id = written
      · subst hid
        exact hw.id_le hs hids
      · rw [hw.others id hid] at hlive
        exact UInt64.le_trans (hs id hlive) hids

theorem Issued.run {s : Sandbox} {moves : List Move} (hs : s.Issued) (hids : s.IdsSuffice moves) :
    (s.run moves).Issued := by
  induction moves generalizing s with
  | nil => exact hs
  | cons m rest ih => exact ih (hs.move hids.1) hids.2

theorem lastId_le_run {s : Sandbox} {moves : List Move} (hids : s.IdsSuffice moves) :
    s.lastId ≤ (s.run moves).lastId := by
  induction moves generalizing s with
  | nil => exact UInt64.le_refl _
  | cons m rest ih => exact UInt64.le_trans hids.1 (ih hids.2)

theorem not_made_again {s : Sandbox} {moves : List Move} {id : OrderId}
    (hids : s.IdsSuffice moves) (hid : id ≤ s.lastId) :
    ∀ l ∈ s.logsOf moves, ¬ l.IsOf .make id := by
  induction moves generalizing s with
  | nil => simp [logsOf]
  | cons m rest ih =>
      intro l hl hof
      rcases List.mem_append.mp hl with hl | hl
      · obtain ⟨_, written, hw⟩ := s.move_writes m l hl
        obtain rfl := hof.2.unique hw.chapter.isAbout
        rcases hw.ids with ⟨_, hnext, hlast⟩ | ⟨hnot, _⟩
        · have hlt := lt_nextId (hlast ▸ hids.1)
          rw [← hnext] at hlt
          exact absurd hid (UInt64.not_le.mpr hlt)
        · exact hnot hof
      · exact ih hids.2 (UInt64.le_trans hid hids.1) l hl hof

/-- An order that is gone stays gone, and nothing more is logged of it. -/
theorem gone_stays_gone {s : Sandbox} {moves : List Move} {id : OrderId}
    (hids : s.IdsSuffice moves) (hid : id ≤ s.lastId) (hgone : s.offer? id = none) :
    about (s.logsOf moves) id = [] ∧ (s.run moves).offer? id = none := by
  have hlife := s.run_life moves id
  rw [hgone] at hlife
  exact hlife.nil_of_none fun l hl => not_made_again hids hid l (List.mem_filter.mp hl).1

theorem id_le_of_logged {s : Sandbox} {moves : List Move} {id : OrderId} (hs : s.Issued)
    (hids : s.IdsSuffice moves) {l : Log} (hl : l ∈ s.logsOf moves) (habout : l.IsAbout id) :
    id ≤ (s.run moves).lastId := by
  induction moves generalizing s with
  | nil => simp [logsOf] at hl
  | cons m rest ih =>
      rcases List.mem_append.mp hl with hl | hl
      · obtain ⟨_, written, hw⟩ := s.move_writes m l hl
        obtain rfl := habout.unique hw.chapter.isAbout
        exact UInt64.le_trans (hw.id_le hs hids.1) (lastId_le_run hids.2)
      · exact ih (hs.move hids.1) hids.2 hl

end Barter.Sandbox
