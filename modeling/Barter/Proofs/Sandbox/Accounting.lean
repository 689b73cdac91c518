import Barter.Proofs.Sandbox.Ids
import Mathlib.Algebra.Ring.Nat
import Mathlib.Logic.ExistsUnique

namespace Barter

open History

namespace History

def takeSum (trail : List Log) (name : String) : Nat :=
  ((records trail .take).map (·.units name)).sum

theorem records_cons_of_eq {l : Log} {kind : EventKind} (h : l.event = kind.name)
    (rest : List Log) : records (l :: rest) kind = l :: records rest kind :=
  List.filter_cons_of_pos (by simpa using h)

theorem records_cons_of_ne {l : Log} {kind other : EventKind} (h : l.event = other.name)
    (hne : other ≠ kind) (rest : List Log) : records (l :: rest) kind = records rest kind := by
  refine List.filter_cons_of_neg ?_
  simp only [decide_eq_true_eq]
  intro he
  exact hne (EventKind.name_injective (h.symm.trans he))

theorem takeSum_cons_take {l : Log} (h : l.event = EventKind.take.name) (rest : List Log)
    (name : String) : takeSum (l :: rest) name = l.units name + takeSum rest name := by
  rw [takeSum, records_cons_of_eq h, List.map_cons, List.sum_cons, takeSum]

theorem takeSum_cons_of_ne {l : Log} {kind : EventKind} (h : l.event = kind.name)
    (hne : kind ≠ .take) (rest : List Log) (name : String) :
    takeSum (l :: rest) name = takeSum rest name := by
  rw [takeSum, records_cons_of_ne h hne, takeSum]

theorem takeSum_nil (name : String) : takeSum [] name = 0 :=
  rfl

end History

structure Leaves (trail : List Log) (pay buy restPay restBuy : Nat) : Prop where
  pay_pos : 0 < restPay
  pay_eq : restPay + takeSum trail "take_amt" = pay
  buy_pos : 0 < restBuy
  buy_eq : restBuy + takeSum trail "give_amt" = buy

structure EndsFilled (trail : List Log) (pay buy : Nat) : Prop where
  last : ∃ l, trail.getLast? = some l ∧ l.event = EventKind.take.name
  kills : records trail .kill = []
  pay_eq : takeSum trail "take_amt" = pay
  buy_eq : takeSum trail "give_amt" = buy

def EndsCancelled (trail : List Log) (pay buy : Nat) : Prop :=
  ∃ kill, trail.getLast? = some kill ∧ records trail .kill = [kill] ∧
    Leaves trail pay buy (kill.units "pay_amt") (kill.units "buy_amt")

def Comes (offer : Offer) (trail : List Log) : Option Offer → Prop
  | some rest => records trail .kill = [] ∧
      Leaves trail offer.payAmount.raw.toNat offer.buyAmount.raw.toNat
        rest.payAmount.raw.toNat rest.buyAmount.raw.toNat
  | none => EndsFilled trail offer.payAmount.raw.toNat offer.buyAmount.raw.toNat ∨
      EndsCancelled trail offer.payAmount.raw.toNat offer.buyAmount.raw.toNat

/-- A log in front of a trail that is no cancellation, and that takes of the offer what it says. -/
theorem Comes.cons {offer between : Offer} {l : Log} {trail : List Log} {after : Option Offer}
    (hkills : records (l :: trail) .kill = records trail .kill)
    (htaken : between.payAmount.raw.toNat + takeSum (l :: trail) "take_amt" =
      offer.payAmount.raw.toNat + takeSum trail "take_amt")
    (hgiven : between.buyAmount.raw.toNat + takeSum (l :: trail) "give_amt" =
      offer.buyAmount.raw.toNat + takeSum trail "give_amt")
    (h : Comes between trail after) : Comes offer (l :: trail) after := by
  have hlast {last : Log} (h : trail.getLast? = some last) : (l :: trail).getLast? = some last := by
    rw [List.getLast?_cons, h]
    rfl
  cases after with
  | some rest =>
      obtain ⟨hnone, hpay, hpayEq, hbuy, hbuyEq⟩ := h
      exact ⟨hkills.trans hnone, hpay, by omega, hbuy, by omega⟩
  | none =>
      rcases h with ⟨⟨last, hend, hevent⟩, hnone, hpayEq, hbuyEq⟩ |
        ⟨kill, hend, hone, hpay, hpayEq, hbuy, hbuyEq⟩
      · exact .inl ⟨⟨last, hlast hend, hevent⟩, hkills.trans hnone, by omega, by omega⟩
      · exact .inr ⟨kill, hlast hend, hkills.trans hone, hpay, by omega, hbuy, by omega⟩

theorem Life.comes {id : OrderId} {offer : Offer} {trail : List Log} {after : Option Offer}
    (h : Life id (some offer) trail after) (hnew : ∀ l ∈ trail, ¬ l.IsOf .make id)
    (pay_pos : 0 < offer.payAmount.raw.toNat) (buy_pos : 0 < offer.buyAmount.raw.toNat) :
    Comes offer trail after := by
  generalize hbefore : some offer = before at h
  induction h generalizing offer with
  | done =>
      subst hbefore
      exact ⟨rfl, pay_pos, rfl, buy_pos, rfl⟩
  | @next _ between after l rest hl hrest ih =>
      subst hbefore
      have hnext : ∀ l ∈ rest, ¬ l.IsOf .make id := fun l hl => hnew l (by simp [hl])
      cases hl with
      | made _ _ _ hof => exact absurd hof (hnew _ (by simp))
      | bumped _ _ hof =>
          have hkills := records_cons_of_ne hof.1 (nofun : EventKind.bump ≠ .kill) rest
          have hsum := takeSum_cons_of_ne hof.1 (nofun : EventKind.bump ≠ .take) rest
          exact (ih hnext pay_pos buy_pos rfl).cons hkills (by rw [hsum]) (by rw [hsum])
      | reduced _ left _ hof _ hpay hbuy hp hb =>
          have hkills := records_cons_of_ne hof.1 (nofun : EventKind.take ≠ .kill) rest
          have hsum := takeSum_cons_take hof.1 rest
          exact (ih hnext hp hb rfl).cons hkills (by rw [hsum]; omega) (by rw [hsum]; omega)
      | emptied _ _ hof hpay hbuy =>
          obtain ⟨rfl, rfl⟩ := hrest.nil_of_none hnext
          have hkills := records_cons_of_ne hof.1 (nofun : EventKind.take ≠ .kill) []
          have hsum := takeSum_cons_take hof.1 []
          exact .inl ⟨⟨l, rfl, hof.1⟩, hkills, (hsum _).trans hpay, (hsum _).trans hbuy⟩
      | killed _ _ hof hpay hbuy =>
          obtain ⟨rfl, rfl⟩ := hrest.nil_of_none hnext
          have hkills := records_cons_of_eq hof.1 []
          have hsum := takeSum_cons_of_ne hof.1 (nofun : EventKind.kill ≠ .take) []
          refine .inr ⟨l, rfl, hkills, by omega, ?_, by omega, ?_⟩
          · rw [hsum, takeSum_nil]
            exact hpay
          · rw [hsum, takeSum_nil]
            exact hbuy

inductive Stage where
  | live
  | filled
  | cancelled

/-- What a stage means for an order that was made for `pay` against `buy`: what stands under its id
now, and what its trail says. -/
def Stage.Holds (now : Option Offer) (trail : List Log) (pay buy : Nat) : Stage → Prop
  | .live => ∃ offer, now = some offer ∧
      Leaves trail pay buy offer.payAmount.raw.toNat offer.buyAmount.raw.toNat
  | .filled => now = none ∧ EndsFilled trail pay buy
  | .cancelled => now = none ∧ EndsCancelled trail pay buy

theorem EndsFilled.not_cancelled {trail : List Log} {pay buy : Nat}
    (h : EndsFilled trail pay buy) : ¬ EndsCancelled trail pay buy := by
  rintro ⟨kill, _, hone, _⟩
  rw [h.kills] at hone
  cases hone

theorem existsUnique_of_comes {offer : Offer} {trail : List Log} {now : Option Offer}
    (h : Comes offer trail now) :
    ∃! stage : Stage,
      stage.Holds now trail offer.payAmount.raw.toNat offer.buyAmount.raw.toNat := by
  cases now with
  | some rest =>
      refine ⟨.live, ⟨rest, rfl, h.2⟩, fun stage hstage => ?_⟩
      cases stage with
      | live => rfl
      | filled | cancelled => cases hstage.1
  | none =>
      rcases h with hfilled | hcancelled
      · refine ⟨.filled, ⟨rfl, hfilled⟩, fun stage hstage => ?_⟩
        cases stage with
        | live => obtain ⟨_, hnow, _⟩ := hstage; cases hnow
        | filled => rfl
        | cancelled => exact absurd hstage.2 hfilled.not_cancelled
      · refine ⟨.cancelled, ⟨rfl, hcancelled⟩, fun stage hstage => ?_⟩
        cases stage with
        | live => obtain ⟨_, hnow, _⟩ := hstage; cases hnow
        | filled => exact absurd hcancelled hstage.2.not_cancelled
        | cancelled => rfl

namespace Sandbox

/-- A record of making opens the trail of its order, which says what has come of it. -/
theorem trail_of_made {s : Sandbox} {moves : List Move} {id : OrderId} {made : Log}
    (hs : s.Issued) (hids : s.IdsSuffice moves) (hmade : made ∈ s.logsOf moves)
    (hof : made.IsOf .make id) :
    ∃ offer, Comes offer (about (s.logsOf moves) id) ((s.run moves).offer? id) ∧
      made.units "pay_amt" = offer.payAmount.raw.toNat ∧
      made.units "buy_amt" = offer.buyAmount.raw.toNat ∧ id ≤ (s.run moves).lastId := by
  obtain ⟨before, m, after, rfl, hmem⟩ := exists_of_mem_logsOf hmade
  obtain ⟨hbefore, hmove, hafter⟩ := idsSuffice_append.mp hids
  obtain ⟨hone, written, hw⟩ := (s.run before).move_writes m made hmem
  obtain rfl := hof.2.unique hw.chapter.isAbout
  obtain ⟨hid, hlast⟩ : id = (s.run before).nextId ∧
      ((s.run before).move m).lastId = (s.run before).nextId := by
    rcases hw.ids with ⟨_, hid, hlast⟩ | ⟨hnot, _⟩
    · exact ⟨hid, hlast⟩
    · exact absurd hof hnot
  have hlt : (s.run before).lastId < id := hid ▸ lt_nextId (hlast ▸ hmove)
  have hle : id ≤ ((s.run before).move m).lastId := by
    rw [hlast, hid]
    exact UInt64.le_refl _
  have hfirst : about (s.logsOf before) id = [] := by
    rw [about, List.filter_eq_nil_iff]
    intro l hl habout
    have := id_le_of_logged hs hbefore hl (by simpa using habout)
    exact absurd this (UInt64.not_le.mpr hlt)
  obtain ⟨offer, hoffer, hpay, hbuy, hp, hb⟩ := hw.chapter.offer_of_made hof
  have hlife := ((s.run before).move m).run_life after id
  have hnew := fun l (hl : l ∈ about (((s.run before).move m).logsOf after) id) =>
    not_made_again hafter hle l (List.mem_filter.mp hl).1
  rw [hoffer] at hlife
  have htrail : about (s.logsOf (before ++ m :: after)) id =
      made :: about (((s.run before).move m).logsOf after) id := by
    rw [logsOf_append, logsOf, about_append, about_append, hfirst, hone]
    rw [about, List.filter_cons_of_pos (by simpa using hof.2)]
    rfl
  refine ⟨offer, ?_, hpay, hbuy, ?_⟩
  · rw [htrail, run_append, run_cons]
    have hkills := records_cons_of_ne hof.1 (by decide : EventKind.make ≠ .kill)
    have hsum := takeSum_cons_of_ne hof.1 (by decide : EventKind.make ≠ .take)
    exact (hlife.comes hnew hp hb).cons (hkills _) (by rw [hsum]) (by rw [hsum])
  · rw [run_append, run_cons]
    exact UInt64.le_trans hle (lastId_le_run hafter)

/-- An order that was made is at each moment live with what the logged takes have left of it, or
filled by them to the last unit, or cancelled with what they had left. -/
theorem existsUnique_stage (market : Address) (kind : MarketKind) (sender : Address) (now : UInt64)
    (moves later : List Move)
    (hids : (Sandbox.new market kind sender now).IdsSuffice (moves ++ later)) (id : OrderId)
    (made : Log) (hmade : made ∈ ((Sandbox.new market kind sender now).run moves).logs)
    (hof : made.IsOf .make id) :
    let s := (Sandbox.new market kind sender now).run moves
    (∃! stage : Stage, stage.Holds (s.offer? id) (about s.logs id) (made.units "pay_amt")
      (made.units "buy_amt")) ∧
    (s.offer? id = none → about (s.logsOf later) id = []) := by
  obtain ⟨hmoves, hlater⟩ := idsSuffice_append.mp hids
  have hlogs : ((Sandbox.new market kind sender now).run moves).logs =
      (Sandbox.new market kind sender now).logsOf moves := logs_run _ _
  rw [hlogs] at hmade
  obtain ⟨offer, hcomes, hpay, hbuy, hid⟩ :=
    trail_of_made (issued_new market kind sender now) hmoves hmade hof
  refine ⟨?_, fun hgone => (gone_stays_gone hlater hid hgone).1⟩
  rw [hlogs, hpay, hbuy]
  exact existsUnique_of_comes hcomes

def filledMoves : List Move :=
  trialMoves ++ [trialMove (.take 1 ⟨.ofUInt64 2⟩)]

theorem existsUnique_stage_of_trial :
    let s := trial.run filledMoves
    ∃ made ∈ s.logs, made.IsOf .make 1 ∧
      (∃! stage : Stage, stage.Holds (s.offer? 1) (about s.logs 1) (made.units "pay_amt")
        (made.units "buy_amt")) ∧
      (s.offer? 1 = none → about (s.logsOf [trialMove (.bump 1)]) 1 = []) := by
  have hids : trial.IdsSuffice (filledMoves ++ [trialMove (.bump 1)]) :=
    ⟨by decide, by decide, by decide, by decide, trivial⟩
  have hof : ((trial.run filledMoves).logs.head (by decide)).IsOf .make 1 := by decide
  have hmade := List.head_mem (show (trial.run filledMoves).logs ≠ [] by decide)
  exact ⟨_, hmade, hof, existsUnique_stage _ _ _ _ filledMoves _ hids 1 _ hmade hof⟩

end Sandbox

end Barter
