import Barter.Proofs.Sandbox.WellFormed

namespace Barter.Sandbox

open Session

inductive Issues (s : Sandbox) : SandboxAction → OrderId → Prop
  | announced (intent : Intent) (l : Log) (id : OrderId)
      (hl : l ∈ s.receiptLogs (.submit intent)) (h : l.IsOf .make id) :
      Issues s (.submit intent) id
  | replied (offer : Offer) (id : OrderId)
      (h : (onSandbox s (.insert offer)).1 = .ok (.number id.toNat)) : Issues s (.insert offer) id

inductive Puts (s : Sandbox) : SandboxAction → OrderId → Prop
  | issued {a : SandboxAction} {id : OrderId} (h : s.Issues a id) : Puts s a id
  | placed (id : OrderId) (offer : Offer) : Puts s (.insertAt id offer) id

/-- The action takes the id out of use for orders to come. -/
inductive Uses (s : Sandbox) : SandboxAction → OrderId → Prop
  | put {a : SandboxAction} {id : OrderId} (h : s.Puts a id) : Uses s a id
  | reserved (id : OrderId) : Uses s (.reserveIds id) id

def Overflows (s : Sandbox) (a : SandboxAction) : Prop :=
  s.lastId.toNat + 1 = UInt64.size ∧ ∃ id, s.Issues a id

def Sometime (P : Sandbox → SandboxAction → Prop) (s : Sandbox) : List SandboxAction → Prop
  | [] => False
  | a :: rest => P s a ∨ Sometime P (s.act a) rest

theorem perform_append (s : Sandbox) (before rest : List SandboxAction) :
    s.perform (before ++ rest) = (s.perform before).perform rest :=
  List.foldl_append

theorem sometime_append {P : Sandbox → SandboxAction → Prop} {s : Sandbox}
    {before rest : List SandboxAction} :
    Sometime P s (before ++ rest) ↔ Sometime P s before ∨ Sometime P (s.perform before) rest := by
  induction before generalizing s with
  | nil => simp [Sometime, perform]
  | cons a before ih => exact (or_congr_right ih).trans or_assoc.symm

theorem puts_submit_iff {s : Sandbox} {intent : Intent} {id : OrderId} :
    s.Puts (.submit intent) id ↔ ∃ l ∈ s.receiptLogs (.submit intent), l.IsOf .make id := by
  constructor
  · intro h
    cases h with
    | issued h =>
        cases h with
        | announced _ l _ hl hof => exact ⟨l, hl, hof⟩
  · rintro ⟨l, hl, hof⟩
    exact .issued (.announced intent l id hl hof)

/-- Where no order is put under an id, what stands under it goes on with its life. -/
theorem act_life {s : Sandbox} {a : SandboxAction} {id : OrderId} (hkept : ¬ s.Puts a id) :
    ∃ trail, Life id (s.offer? id) trail ((s.act a).offer? id) ∧
      ∀ l ∈ trail, ¬ l.IsOf .make id := by
  have hacts := s.act_acts a
  generalize s.act a = after at hacts ⊢
  cases hacts with
  | submitted intent =>
      refine ⟨_, s.move_life (.submit intent) id, fun l hl hof => ?_⟩
      exact hkept (puts_submit_iff.mpr ⟨l, (List.mem_filter.mp hl).1, hof⟩)
  | kept _ hoffers =>
      rw [offer?_of_offers_eq hoffers]
      exact ⟨[], .done _, nofun⟩
  | placed at' offer =>
      have hne : at' ≠ id := by
        rintro rfl
        exact hkept (.placed at' offer)
      rw [offer?_insertAt, if_neg hne]
      exact ⟨[], .done _, nofun⟩
  | inserted offer =>
      have hne : s.nextId ≠ id := by
        rintro rfl
        exact hkept (.issued (.replied offer s.nextId rfl))
      rw [offer?_insert, if_neg hne]
      exact ⟨[], .done _, nofun⟩

theorem perform_life {s : Sandbox} {actions : List SandboxAction} {id : OrderId}
    (hkept : ¬ Sometime (·.Puts · id) s actions) :
    ∃ trail, Life id (s.offer? id) trail ((s.perform actions).offer? id) ∧
      ∀ l ∈ trail, ¬ l.IsOf .make id := by
  induction actions generalizing s with
  | nil => exact ⟨[], .done _, nofun⟩
  | cons a rest ih =>
      obtain ⟨ha, hrest⟩ := not_or.mp hkept
      obtain ⟨first, hfirst, hnew⟩ := act_life ha
      obtain ⟨later, hlater, hnew'⟩ := ih hrest
      exact ⟨first ++ later, hfirst.append hlater, List.forall_mem_append.mpr ⟨hnew, hnew'⟩⟩

section

variable {s : Sandbox} {a : SandboxAction} {actions before rest : List SandboxAction} {id : OrderId}

theorem Issues.eq_nextId (h : s.Issues a id) : id = s.nextId ∧ (s.act a).lastId = s.nextId := by
  cases h with
  | announced intent l id hl hof =>
      obtain ⟨_, written, hw⟩ := s.move_writes (.submit intent) l hl
      obtain rfl := hof.2.unique hw.chapter.isAbout
      rw [act_submit]
      exact (hw.ids.resolve_right fun hnot => hnot.1 hof).2
  | replied offer id h =>
      have hid : s.nextId.toNat = id.toNat := Reply.number.inj (Except.ok.inj h)
      exact ⟨(UInt64.toNat_inj.mp hid).symm, rfl⟩

theorem nextId_toNat (h : s.lastId.toNat + 1 ≠ UInt64.size) :
    s.nextId.toNat = s.lastId.toNat + 1 := by
  refine (UInt64.toNat_add ..).trans (Nat.mod_eq_of_lt ?_)
  have hlt : s.lastId.toNat < UInt64.size := s.lastId.toNat_lt
  have hone : (1 : UInt64).toNat = 1 := rfl
  rw [hone]
  exact Nat.lt_of_le_of_ne hlt h

theorem Issues.lt (h : s.Issues a id) (hcount : ¬ s.Overflows a) : s.lastId < id := by
  obtain ⟨rfl, _⟩ := h.eq_nextId
  rw [UInt64.lt_iff_toNat_lt, nextId_toNat fun hfull => hcount ⟨hfull, _, h⟩]
  exact Nat.lt_succ_self _

/-- The count of ids goes on: where it is not made to start again, no action sets it back. -/
theorem le_lastId_act (hcount : ¬ s.Overflows a) : s.lastId ≤ (s.act a).lastId := by
  by_cases hissues : ∃ id, s.Issues a id
  · obtain ⟨id, h⟩ := hissues
    rw [h.eq_nextId.2, ← h.eq_nextId.1]
    exact UInt64.le_of_lt (h.lt hcount)
  · have hacts := s.act_acts a
    generalize hafter : s.act a = after at hacts
    cases hacts with
    | inserted offer => exact absurd ⟨s.nextId, .replied offer _ rfl⟩ hissues
    | placed id offer => exact (s.le_lastId_reserveIds id).1
    | kept _ _ hlast => exact hlast
    | submitted intent =>
        cases hlogs : s.receiptLogs (.submit intent) with
        | nil => exact UInt64.le_of_eq (move_quiet hlogs).lastId.symm
        | cons l logs =>
            have hl : l ∈ s.receiptLogs (.submit intent) := by rw [hlogs]; exact List.mem_cons_self
            obtain ⟨_, written, hw⟩ := s.move_writes (.submit intent) l hl
            rcases hw.ids with ⟨hof, _⟩ | ⟨_, hlast⟩
            · exact absurd ⟨written, .announced intent l written hl hof⟩ hissues
            · exact UInt64.le_of_eq hlast.symm

theorem countsOn_of_not_overflows (hcount : ¬ Sometime Overflows s actions) :
    s.CountsOn actions := by
  induction actions generalizing s with
  | nil => trivial
  | cons a rest ih =>
      obtain ⟨ha, hrest⟩ := not_or.mp hcount
      exact ⟨le_lastId_act ha, ih hrest⟩

theorem lastId_le_perform (hids : s.CountsOn actions) : s.lastId ≤ (s.perform actions).lastId := by
  induction actions generalizing s with
  | nil => exact UInt64.le_refl _
  | cons a rest ih => exact UInt64.le_trans hids.1 (ih hids.2)

theorem countsOn_append :
    s.CountsOn (before ++ rest) ↔ s.CountsOn before ∧ (s.perform before).CountsOn rest := by
  induction before generalizing s with
  | nil => simp [CountsOn, perform]
  | cons a before ih => exact (and_congr_right' ih).trans and_assoc.symm

theorem Uses.le_lastId (h : s.Uses a id) : id ≤ (s.act a).lastId := by
  cases h with
  | reserved id => exact (s.le_lastId_reserveIds id).2
  | put h =>
      cases h with
      | placed id offer => exact (s.le_lastId_reserveIds id).2
      | issued h =>
          rw [h.eq_nextId.2, h.eq_nextId.1]
          exact UInt64.le_refl _

theorem le_lastId_of_used (hids : s.CountsOn actions)
    (h : Sometime (·.Uses · id) s actions) : id ≤ (s.perform actions).lastId := by
  induction actions generalizing s with
  | nil => exact h.elim
  | cons a rest ih =>
      rcases h with h | h
      · exact UInt64.le_trans h.le_lastId (lastId_le_perform hids.2)
      · exact ih hids.2 h

theorem Issued.insertAt (hs : s.Issued) (id : OrderId) (offer : Offer) :
    (s.insertAt id offer).Issued := by
  obtain ⟨hlast, hle⟩ := s.le_lastId_reserveIds id
  intro other hlive
  rw [offer?_insertAt] at hlive
  split at hlive
  next hid => exact hid ▸ hle
  next => exact UInt64.le_trans (hs other hlive) hlast

theorem Issued.perform (hs : s.Issued) (hids : s.CountsOn actions) : (s.perform actions).Issued := by
  induction actions generalizing s with
  | nil => exact hs
  | cons a rest ih =>
      refine ih ?_ hids.2
      have hstep := hids.1
      have hacts := s.act_acts a
      generalize s.act a = after at hacts hstep ⊢
      cases hacts with
      | submitted intent => exact hs.move (m := .submit intent) hstep
      | placed id offer => exact hs.insertAt id offer
      | inserted offer =>
          rw [insert_eq_insertAt hstep]
          exact hs.insertAt _ offer
      | kept _ hoffers =>
          intro id hlive
          rw [offer?_of_offers_eq hoffers] at hlive
          exact UInt64.le_trans (hs id hlive) hstep

/-- Only a new order, or one that is put there, comes up under an id. -/
theorem act_offer?_eq_none (hids : s.lastId ≤ (s.act a).lastId)
    (hplace : ∀ id offer, a ≠ .insertAt id offer) (hle : id ≤ s.lastId)
    (hgone : s.offer? id = none) : (s.act a).offer? id = none := by
  have hacts := s.act_acts a
  generalize s.act a = after at hacts hids ⊢
  cases hacts with
  | submitted intent =>
      have hsuffice : s.IdsSuffice [.submit intent] := ⟨hids, trivial⟩
      exact (gone_stays_gone hsuffice hle hgone).2
  | placed at' offer => exact absurd rfl (hplace at' offer)
  | kept _ hoffers => exact (offer?_of_offers_eq hoffers id).trans hgone
  | inserted offer =>
      have hlt := lt_nextId (s := s) hids
      have hne : s.nextId ≠ id := by
        rintro rfl
        exact UInt64.not_le.mpr hlt hle
      rw [offer?_insert, if_neg hne, hgone]

theorem perform_offer?_eq_none (hids : s.CountsOn actions)
    (hplace : ∀ id offer, .insertAt id offer ∉ actions) (hle : id ≤ s.lastId)
    (hgone : s.offer? id = none) : (s.perform actions).offer? id = none := by
  induction actions generalizing s with
  | nil => exact hgone
  | cons a rest ih =>
      have ha (id : OrderId) (offer : Offer) : a ≠ .insertAt id offer := by
        rintro rfl
        exact hplace id offer List.mem_cons_self
      have hrest (id : OrderId) (offer : Offer) : .insertAt id offer ∉ rest := fun hmem =>
        hplace id offer (List.mem_cons_of_mem a hmem)
      exact ih hids.2 hrest (UInt64.le_trans hle hids.1) (act_offer?_eq_none hids.1 ha hle hgone)

end

/-- As long as the count of ids does not overflow, the id of a new order is greater than all that
were used before, and an order that is gone never comes back by itself. -/
theorem ids_fresh {s : Sandbox} (hs : s.Opens) (actions : List SandboxAction)
    (hcount : ¬ Sometime Overflows s actions) :
    (∀ id, (s.perform actions).offer? id ≠ none → id ≤ (s.perform actions).lastId) ∧
    (∀ before a rest, actions = before ++ a :: rest → ∀ id, (s.perform before).Issues a id →
      ∀ old, old ≤ s.lastId ∨ Sometime (·.Uses · old) s before → old < id) ∧
    ∀ before rest, actions = before ++ rest →
      (s.perform before).lastId ≤ (s.perform actions).lastId ∧
      ((∀ id offer, .insertAt id offer ∉ rest) → ∀ id, id ≤ (s.perform before).lastId →
        (s.perform before).offer? id = none → (s.perform actions).offer? id = none) := by
  have hids := countsOn_of_not_overflows hcount
  refine ⟨hs.wellFormed.issued.perform hids, ?_, ?_⟩
  · rintro before a rest rfl id hissues old hold
    have hbefore := (countsOn_append.mp hids).1
    have hfits : ¬ (s.perform before).Overflows a := fun h =>
      hcount (sometime_append.mpr (.inr (.inl h)))
    have hle : old ≤ (s.perform before).lastId := by
      rcases hold with hold | hused
      · exact UInt64.le_trans hold (lastId_le_perform hbefore)
      · exact le_lastId_of_used hbefore hused
    exact UInt64.lt_of_le_of_lt hle (hissues.lt hfits)
  · rintro before rest rfl
    have hrest := (countsOn_append.mp hids).2
    rw [perform_append]
    exact ⟨lastId_le_perform hrest, fun hplace id hle hgone =>
      perform_offer?_eq_none hrest hplace hle hgone⟩

def trialIds : List SandboxAction :=
  [.reserveIds 7, .insertAt 20 (trial.offerOf trialTerms), .insert (trial.offerOf trialTerms),
    .submit ((Command.kill 21).intent trial.market),
    .submit ((Command.make trialTerms).intent trial.market)]

theorem ids_fresh_of_trial :
    let last := trial.perform (trialIds.take 4)
    (∀ old, Sometime (·.Uses · old) trial (trialIds.take 4) → old < 22) ∧
      last.offer? 21 = none ∧ (trial.perform trialIds).offer? 21 = none ∧
      (trial.perform trialIds).offer? 22 ≠ none ∧ last.lastId ≤ (trial.perform trialIds).lastId := by
  intro last
  have hcount : ¬ Sometime Overflows trial trialIds := by
    simp only [trialIds, Sometime, Overflows, not_or, not_and]
    exact ⟨fun h => absurd h (by decide), fun h => absurd h (by decide),
      fun h => absurd h (by decide), fun h => absurd h (by decide),
      fun h => absurd h (by decide), not_false⟩
  have hgone : last.offer? 21 = none := by decide
  have hlogs : last.receiptLogs (trialMove (.make trialTerms)) =
      [last.started.announce .make 22 (last.offerOf trialTerms)] := rfl
  have hissues : last.Issues (.submit ((Command.make trialTerms).intent trial.market)) 22 :=
    .announced _ _ 22 (hlogs ▸ List.mem_cons_self) (announce_isOf _ .make 22 _)
  obtain ⟨_, hfresh, hruns⟩ := ids_fresh (.new _ _ _ _) trialIds hcount
  obtain ⟨hlast, hdead⟩ := hruns (trialIds.take 4) (trialIds.drop 4) rfl
  refine ⟨fun old hused => ?_, hgone, ?_, by decide, hlast⟩
  · exact hfresh (trialIds.take 4) _ [] rfl 22 hissues old (.inr hused)
  · exact hdead (by simp [trialIds]) 21 (by decide) hgone

end Barter.Sandbox
