import Barter.Proofs.Sandbox.Aside

namespace Barter.Sandbox

def withQueries (s : Sandbox) (n : Nat) : Sandbox :=
  { s with queries := n }

variable (s : Sandbox) (n : Nat)

theorem submit_withQueries (intent : Intent) :
    (s.withQueries n).submit intent = ((s.submit intent).1, (s.submit intent).2.withQueries n) := by
  have h := s.submit_aside n s.channels intent
  rw [← (submit_snd intent).2] at h
  exact h

theorem move_withQueries (m : Move) : (s.withQueries n).move m = (s.move m).withQueries n := by
  cases m with
  | submit intent => exact congrArg Prod.snd (s.submit_withQueries n intent)
  | setSender | setTime | setCloseTime => rfl

/-- Questions leave no mark: however many were asked, a run comes to the same. -/
theorem run_withQueries (moves : List Move) :
    (s.withQueries n).run moves = (s.run moves).withQueries n := by
  induction moves generalizing s with
  | nil => rfl
  | cons m rest ih => rw [run_cons, run_cons, move_withQueries, ih]

theorem idsSuffice_withQueries {moves : List Move} (h : s.IdsSuffice moves) :
    (s.withQueries n).IdsSuffice moves := by
  induction moves generalizing s with
  | nil => trivial
  | cons m rest ih =>
      rw [IdsSuffice, move_withQueries]
      exact ⟨h.1, ih _ h.2⟩

end Barter.Sandbox
