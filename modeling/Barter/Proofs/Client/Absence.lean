import Barter.Proofs.Client.Shared
import Mathlib.Data.List.Induction

namespace Barter

open Client

/-- A cache that is right about the sandbox: it holds every id that was asked for early, and all
others that it holds were given out and have no order any more. -/
structure Coherent (market : Address) (early : OrderId → Prop) (absent : Std.ExtTreeSet OrderId)
    (s : Sandbox) : Prop where
  market : s.market = market
  issued : s.Issued
  known : ∀ id ∈ absent, early id ∨ id ≤ s.lastId ∧ s.offer? id = none
  early : ∀ id, early id → id ∈ absent

namespace Coherent

variable {market : Address} {early : OrderId → Prop} {absent : Std.ExtTreeSet OrderId} {s : Sandbox}

theorem run (h : Coherent market early absent s) {moves : List Move} (hids : s.IdsSuffice moves) :
    Coherent market early absent (s.run moves) := by
  refine ⟨(s.market_run moves).trans h.market, h.issued.run hids, fun id hid => ?_, h.early⟩
  rcases h.known id hid with hearly | ⟨hle, hgone⟩
  · exact .inl hearly
  · exact .inr ⟨UInt64.le_trans hle (Sandbox.lastId_le_run hids),
      (Sandbox.gone_stays_gone hids hle hgone).2⟩

theorem asked (h : Coherent market early absent s) : Coherent market early absent s.asked :=
  ⟨h.market, h.issued, h.known, h.early⟩

theorem insert (h : Coherent market early absent s) {id : OrderId} (hle : id ≤ s.lastId)
    (hgone : s.offer? id = none) : Coherent market early (absent.insert id) s := by
  refine ⟨h.market, h.issued, fun j hj => ?_, fun j hj => ?_⟩
  · rcases Std.ExtTreeSet.mem_insert.mp hj with hj | hj
    · obtain rfl := Std.LawfulEqOrd.eq_of_compare hj
      exact .inr ⟨hle, hgone⟩
    · exact h.known j hj
  · exact Std.ExtTreeSet.mem_insert.mpr (.inr (h.early j hj))

theorem insert_early (h : Coherent market early absent s) (id : OrderId) :
    Coherent market (fun j => early j ∨ j = id) (absent.insert id) s := by
  refine ⟨h.market, h.issued, fun j hj => ?_, fun j hj => ?_⟩
  · rcases Std.ExtTreeSet.mem_insert.mp hj with hj | hj
    · exact .inl (.inr (Std.LawfulEqOrd.eq_of_compare hj).symm)
    · exact (h.known j hj).imp_left .inl
  · rcases hj with hj | rfl
    · exact Std.ExtTreeSet.mem_insert.mpr (.inr (h.early j hj))
    · exact Std.ExtTreeSet.mem_insert_self

theorem congr (h : Coherent market early absent s) {other : OrderId → Prop}
    (hsame : ∀ id, early id ↔ other id) : Coherent market other absent s :=
  ⟨h.market, h.issued, fun id hid => (h.known id hid).imp_left (hsame id).mp,
    fun id hid => h.early id ((hsame id).mpr hid)⟩

/-- Of the orders that are live, just those are in the cache that were asked for early. -/
theorem mem_iff (h : Coherent market early absent s) {id : OrderId} (hlive : s.offer? id ≠ none) :
    id ∈ absent ↔ early id := by
  refine ⟨fun hid => ?_, h.early id⟩
  rcases h.known id hid with hearly | ⟨_, hgone⟩
  · exact hearly
  · exact absurd hgone hlive

theorem order_eq_absent_iff (h : Coherent market early absent s) {id : OrderId}
    (hlive : s.offer? id ≠ none) :
    (order Sandbox.ledger market id ⟨absent, s⟩).1 = .ok .absent ↔ early id := by
  rw [← h.mem_iff hlive]
  constructor
  · intro habsent
    by_contra hmem
    obtain ⟨offer, hoffer⟩ := Option.ne_none_iff_exists'.mp hlive
    have hcall := s.call_answer (q := .offer id) rfl
    rw [h.market, Sandbox.answer, hoffer] at hcall
    rw [order_of_live hmem hcall] at habsent
    split at habsent <;> cases habsent
  · intro hmem
    rw [order_of_mem hmem]

/-- What a lookup leaves: if the id was not given out yet, it has been asked for early. -/
theorem order (h : Coherent market early absent s) (id : OrderId) :
    let v := (Client.order Sandbox.ledger market id ⟨absent, s⟩).2
    Coherent market (fun j => early j ∨ j = id ∧ s.lastId < id) v.absent v.ledger := by
  have hcall := s.call_answer (q := .offer id) rfl
  rw [h.market, Sandbox.answer] at hcall
  have hissued (hle : id ≤ s.lastId) (j : OrderId) : early j ↔ early j ∨ j = id ∧ s.lastId < id :=
    (or_iff_left fun hlt => UInt64.not_lt.mpr hle hlt.2).symm
  by_cases hmem : id ∈ absent
  · rw [order_of_mem hmem]
    rcases h.known id hmem with hearly | ⟨hle, _⟩
    · refine h.congr fun j => ⟨.inl, ?_⟩
      rintro (hj | ⟨rfl, _⟩)
      · exact hj
      · exact hearly
    · exact h.congr (hissued hle)
  · cases hoffer : s.offer? id with
    | none =>
        rw [hoffer] at hcall
        rw [order_of_empty hmem hcall]
        -- an empty slot is one that was used up, or one that is still to come
        by_cases hle : id ≤ s.lastId
        · exact ((h.insert hle hoffer).congr (hissued hle)).asked
        · refine ((h.insert_early id).congr fun j => ?_).asked
          rw [and_iff_left (UInt64.not_le.mp hle)]
    | some offer =>
        rw [hoffer] at hcall
        rw [order_of_live hmem hcall]
        have hle := h.issued id (by rw [hoffer]; nofun)
        exact (h.congr (hissued hle)).asked

end Coherent

structure Steady (market : Address) (early : OrderId → Prop) (x : View Shared) : Prop where
  coherent : Coherent market early x.absent x.ledger.sandbox
  suffice : x.ledger.sandbox.IdsSuffice x.ledger.coming.flatten

namespace Steady

variable {market : Address} {early : OrderId → Prop} {x : View Shared}

theorem met (h : Steady market early x) :
    Steady market early ⟨x.absent, x.ledger.met.asked, x.ledger.coming.tail⟩ ∧
      x.ledger.sandbox.lastId ≤ x.ledger.met.lastId := by
  have hsplit : x.ledger.coming.flatten =
      x.ledger.coming.headD [] ++ x.ledger.coming.tail.flatten := by
    cases x.ledger.coming with
    | nil => rfl
    | cons batch coming => rfl
  obtain ⟨hnext, hlater⟩ := Sandbox.idsSuffice_append.mp (hsplit ▸ h.suffice)
  exact ⟨⟨(h.coherent.run hnext).asked, Sandbox.idsSuffice_withQueries _ _ hlater⟩,
    Sandbox.lastId_le_run hnext⟩

theorem order (h : Steady market early x) {id : OrderId}
    (hle : id ≤ x.ledger.sandbox.lastId) :
    let w := (Client.order Shared.ledger market id x).2
    Steady market early w ∧ x.ledger.sandbox.lastId ≤ w.ledger.sandbox.lastId := by
  obtain ⟨hmet, hlast⟩ := h.met
  by_cases hmem : id ∈ x.absent
  · rw [order_of_mem hmem]
    exact ⟨h, UInt64.le_refl _⟩
  · have hcall := Shared.call_answer h.coherent.market (q := .offer id) rfl
    rw [Sandbox.answer] at hcall
    cases hoffer : x.ledger.met.offer? id with
    | none =>
        rw [hoffer] at hcall
        rw [order_of_empty hmem hcall]
        have hgone : x.ledger.met.asked.offer? id = none := hoffer
        exact ⟨⟨hmet.coherent.insert (UInt64.le_trans hle hlast) hgone, hmet.suffice⟩, hlast⟩
    | some offer =>
        rw [hoffer] at hcall
        rw [order_of_live hmem hcall]
        exact ⟨hmet, hlast⟩

theorem ordersFrom (h : Steady market early x) {n count : Nat} (found : List Order)
    (hle : n + count ≤ x.ledger.sandbox.lastId.toNat + 1) :
    Steady market early
      (Client.ordersFrom Shared.ledger market (UInt64.ofNat n) found count x).2 := by
  induction count generalizing n found x with
  | zero => exact h
  | succ count ih =>
      have hlt := x.ledger.sandbox.lastId.toNat_lt
      have hid : UInt64.ofNat n ≤ x.ledger.sandbox.lastId := by
        rw [UInt64.le_iff_toNat_le, UInt64.toNat_ofNat_of_lt' (by simp only [UInt64.size]; omega)]
        omega
      have hnext : UInt64.ofNat n + 1 = UInt64.ofNat (n + 1) := (UInt64.ofNat_add n 1).symm
      obtain ⟨hw, hlast⟩ := h.order hid
      rw [ordersFrom_succ, hnext]
      generalize Client.order Shared.ledger market (UInt64.ofNat n) x = looked at hw hlast
      obtain ⟨answer, w⟩ := looked
      have hroom : n + 1 + count ≤ w.ledger.sandbox.lastId.toNat + 1 := by
        have hmore : x.ledger.sandbox.lastId.toNat ≤ w.ledger.sandbox.lastId.toNat :=
          UInt64.le_iff_toNat_le.mp hlast
        omega
      cases answer with
      | error e => exact hw
      | ok found? =>
          cases found? with
          | present o => exact ih hw (o :: found) hroom
          | absent => exact ih hw found hroom

/-- A listing begins with the last id that was given out, and leaves out just those orders that were
asked for early. -/
theorem orders (h : Steady market early x) :
    let listed := Client.orders Shared.ledger market x
    Steady market early listed.2 ∧
      ∀ result, listed.1 = .ok result → ∀ id, 1 ≤ id → id ≤ x.ledger.met.lastId →
        listed.2.ledger.sandbox.offer? id ≠ none →
          ((∃ o ∈ result, o.id = id) ↔ ¬ early id) := by
  obtain ⟨hmet, _⟩ := h.met
  have hcall := Shared.call_answer h.coherent.market (q := .lastOfferId) rfl
  rw [Sandbox.answer] at hcall
  have hlt := x.ledger.met.lastId.toNat_lt
  have hsteady := hmet.ordersFrom (n := 1) [] (Nat.le_of_eq (Nat.add_comm 1 _))
  rw [orders_eq hcall]
  refine ⟨hsteady, fun result hresult id hone hlast hlive => ?_⟩
  obtain ⟨new, rfl, hlists⟩ := ordersFrom_lists (n := 1) (by simp only [UInt64.size]; omega)
    (Prod.ext hresult rfl)
  have hlow : 1 ≤ id.toNat := UInt64.le_iff_toNat_le.mp hone
  have hhigh : id.toNat ≤ x.ledger.met.lastId.toNat := UInt64.le_iff_toNat_le.mp hlast
  constructor
  · rintro ⟨o, ho, rfl⟩ hearly
    exact hlists.fresh o ho (h.coherent.early _ hearly)
  · intro hearly
    rcases hlists.covers id hlow (by omega) with hfound | hmem
    · exact hfound
    · exact absurd ((hsteady.coherent.mem_iff hlive).mp hmem) hearly

end Steady

theorem coherent_empty {s : Sandbox} (hs : s.Issued) :
    Coherent s.market (fun _ => False) ∅ s :=
  ⟨rfl, hs, fun _ hid => absurd hid Std.ExtTreeSet.not_mem_empty, nofun⟩

theorem askedEarly_append_singleton (market : Address) (v : View Sandbox) (turns : List Turn)
    (turn : Turn) (id : OrderId) :
    AskedEarly market v (turns ++ [turn]) id ↔
      AskedEarly market v turns id ∨
        turn = .order id ∧ (Turn.playAll market v turns).ledger.lastId < id := by
  constructor
  · rintro ⟨before, after, hturns, hlt⟩
    rcases List.eq_nil_or_concat after with rfl | ⟨after, last, rfl⟩
    · obtain ⟨rfl, hturn⟩ := List.append_inj' hturns rfl
      exact .inr ⟨List.singleton_inj.mp hturn, hlt⟩
    · rw [List.concat_eq_append, ← List.cons_append, ← List.append_assoc] at hturns
      exact .inl ⟨before, after, (List.append_inj' hturns rfl).1, hlt⟩
  · rintro (⟨before, after, rfl, hlt⟩ | ⟨rfl, hlt⟩)
    · exact ⟨before, after ++ [turn], by simp, hlt⟩
    · exact ⟨turns, [], rfl, hlt⟩

theorem Coherent.play {market : Address} {early : OrderId → Prop} {v : View Sandbox}
    (h : Coherent market early v.absent v.ledger) (turn : Turn)
    (hids : v.ledger.IdsSuffice turn.moves) :
    let w := turn.play market v
    Coherent market (fun id => early id ∨ turn = .order id ∧ v.ledger.lastId < id) w.absent
      w.ledger := by
  have hnot (hne : ∀ id, turn ≠ .order id) (id : OrderId) :
      early id ↔ early id ∨ turn = .order id ∧ v.ledger.lastId < id :=
    (or_iff_left fun horder => hne id horder.1).symm
  cases turn with
  | move m => exact (h.run hids).congr (hnot nofun)
  | order id =>
      refine (h.order id).congr fun j => or_congr_right ?_
      constructor
      · rintro ⟨rfl, hlt⟩
        exact ⟨rfl, hlt⟩
      · rintro ⟨horder, hlt⟩
        obtain rfl := Turn.order.inj horder
        exact ⟨rfl, hlt⟩
  | orders coming =>
      have hsteady : Steady market early ⟨v.absent, ⟨v.ledger, coming⟩⟩ := ⟨h, hids⟩
      exact hsteady.orders.1.coherent.congr (hnot nofun)

/-- Throughout a session the cache is right about all orders but those that were asked for early. -/
theorem coherent_playAll {s : Sandbox} (hs : s.Issued) (turns : List Turn)
    (hids : Turn.AllSuffice s.market ⟨∅, s⟩ turns) :
    let v := Turn.playAll s.market ⟨∅, s⟩ turns
    Coherent s.market (AskedEarly s.market ⟨∅, s⟩ turns) v.absent v.ledger := by
  induction turns using List.reverseRecOn with
  | nil =>
      refine (coherent_empty hs).congr fun id => ⟨nofun, ?_⟩
      rintro ⟨before, after, hturns, _⟩
      cases before <;> cases hturns
  | append_singleton turns turn ih =>
      obtain ⟨hbefore, hturn⟩ := Turn.allSuffice_append.mp hids
      have hw := (ih hbefore).play turn (Turn.allSuffice_singleton.mp hturn)
      rw [Turn.playAll, List.foldl_append]
      exact hw.congr fun id => (askedEarly_append_singleton _ _ turns turn id).symm

/-- An order that is live is answered absent, or left out of a listing, just when the client looked
its id up before the market had given it out. -/
theorem absent_iff_askedEarly (s : Sandbox) (hs : s.Issued) (turns : List Turn)
    (coming : List (List Move))
    (hids : Turn.AllSuffice s.market ⟨∅, s⟩ (turns ++ [.orders coming])) (id : OrderId) :
    let v := Turn.playAll s.market ⟨∅, s⟩ turns
    let listed := Client.orders Shared.ledger s.market ⟨v.absent, ⟨v.ledger, coming⟩⟩
    (v.ledger.offer? id ≠ none →
      ((Client.order Sandbox.ledger s.market id v).1 = .ok .absent ↔
        AskedEarly s.market ⟨∅, s⟩ turns id)) ∧
    ∀ result, listed.1 = .ok result → 1 ≤ id → id ≤ (v.ledger.run (coming.headD [])).lastId →
      listed.2.ledger.sandbox.offer? id ≠ none →
        ((∀ o ∈ result, o.id ≠ id) ↔ AskedEarly s.market ⟨∅, s⟩ turns id) := by
  intro v listed
  obtain ⟨hturns, hcoming⟩ := Turn.allSuffice_append.mp hids
  have hv := coherent_playAll hs turns hturns
  refine ⟨hv.order_eq_absent_iff, fun result hresult hone hlast hlive => ?_⟩
  have hsteady : Steady s.market (AskedEarly s.market ⟨∅, s⟩ turns)
      ⟨v.absent, ⟨v.ledger, coming⟩⟩ := ⟨hv, Turn.allSuffice_singleton.mp hcoming⟩
  have hfound := hsteady.orders.2 result hresult id hone hlast hlive
  constructor
  · intro hmissing
    by_contra hearly
    obtain ⟨o, ho, hid⟩ := hfound.mpr hearly
    exact hmissing o ho hid
  · intro hearly o ho hid
    exact hfound.mp ⟨o, ho, hid⟩ hearly

def earlyTurns : List Turn :=
  [.order 1, .move (Sandbox.trialMove (.make Sandbox.trialTerms))]

theorem absent_while_live :
    let v := Turn.playAll Sandbox.trial.market ⟨∅, Sandbox.trial⟩ earlyTurns
    v.ledger.offer? 1 ≠ none ∧
      (Client.order Sandbox.ledger Sandbox.trial.market 1 v).1 = .ok .absent ∧
      v.ledger.lastId = 1 ∧
      (Client.orders Sandbox.ledger Sandbox.trial.market v).1 = .ok [] := by
  decide

theorem absent_iff_askedEarly_of_trial :
    AskedEarly Sandbox.trial.market ⟨∅, Sandbox.trial⟩ earlyTurns 1 ∧
      (Client.order Sandbox.ledger Sandbox.trial.market 1
        (Turn.playAll Sandbox.trial.market ⟨∅, Sandbox.trial⟩ earlyTurns)).1 = .ok .absent := by
  have hearly : AskedEarly Sandbox.trial.market ⟨∅, Sandbox.trial⟩ earlyTurns 1 :=
    ⟨[], _, rfl, by decide⟩
  have h := absent_iff_askedEarly Sandbox.trial (Sandbox.issued_new _ _ _ _) earlyTurns []
    ⟨trivial, ⟨by decide, trivial⟩, trivial, trivial⟩ 1
  exact ⟨hearly, (h.1 (by decide)).mpr hearly⟩

end Barter
