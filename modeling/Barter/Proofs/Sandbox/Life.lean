import Barter.Proofs.Sandbox.Run

namespace Barter

namespace Log

def IsAbout (l : Log) (id : OrderId) : Prop :=
  l.args["id"]? = some (.orderId id)

instance (l : Log) (id : OrderId) : Decidable (l.IsAbout id) :=
  inferInstanceAs (Decidable (_ = _))

def IsOf (l : Log) (kind : EventKind) (id : OrderId) : Prop :=
  l.event = kind.name ∧ l.IsAbout id

instance (l : Log) (kind : EventKind) (id : OrderId) : Decidable (l.IsOf kind id) :=
  inferInstanceAs (Decidable (_ ∧ _))

def units (l : Log) (name : String) : Nat :=
  match l.args[name]? with
  | some (.uint w) => w.toNat
  | _ => 0

theorem IsAbout.unique {l : Log} {id other : OrderId} (h : l.IsAbout id) (h' : l.IsAbout other) :
    id = other :=
  Value.orderId_inj.mp (Option.some.inj (h.symm.trans h'))

theorem IsOf.kind_unique {l : Log} {kind kind' : EventKind} {id id' : OrderId}
    (h : l.IsOf kind id) (h' : l.IsOf kind' id') : kind = kind' :=
  EventKind.name_injective (h.1.symm.trans h'.1)

end Log

namespace History

def about (logs : List Log) (id : OrderId) : List Log :=
  logs.filter (·.IsAbout id)

def records (logs : List Log) (kind : EventKind) : List Log :=
  logs.filter (·.event = kind.name)

theorem about_append (logs more : List Log) (id : OrderId) :
    about (logs ++ more) id = about logs id ++ about more id :=
  List.filter_append ..

end History

/-- What one log about an order says, between what stands under its id before and after. An order
can be made over anything; the rest happens to orders that are there. -/
inductive Chapter (id : OrderId) : Option Offer → Log → Option Offer → Prop
  | made (before : Option Offer) (l : Log) (offer : Offer) (h : l.IsOf .make id)
      (hpay : l.units "pay_amt" = offer.payAmount.raw.toNat)
      (hbuy : l.units "buy_amt" = offer.buyAmount.raw.toNat)
      (pay_pos : 0 < offer.payAmount.raw.toNat) (buy_pos : 0 < offer.buyAmount.raw.toNat) :
      Chapter id before l (some offer)
  | bumped (offer : Offer) (l : Log) (h : l.IsOf .bump id) :
      Chapter id (some offer) l (some offer)
  | reduced (offer rest : Offer) (l : Log) (h : l.IsOf .take id)
      (hgive : l.units "give_amt" =
        l.units "take_amt" * offer.buyAmount.raw.toNat / offer.payAmount.raw.toNat)
      (hpay : rest.payAmount.raw.toNat + l.units "take_amt" = offer.payAmount.raw.toNat)
      (hbuy : rest.buyAmount.raw.toNat + l.units "give_amt" = offer.buyAmount.raw.toNat)
      (pay_pos : 0 < rest.payAmount.raw.toNat) (buy_pos : 0 < rest.buyAmount.raw.toNat) :
      Chapter id (some offer) l (some rest)
  | emptied (offer : Offer) (l : Log) (h : l.IsOf .take id)
      (hpay : l.units "take_amt" = offer.payAmount.raw.toNat)
      (hbuy : l.units "give_amt" = offer.buyAmount.raw.toNat) :
      Chapter id (some offer) l none
  | killed (offer : Offer) (l : Log) (h : l.IsOf .kill id)
      (hpay : l.units "pay_amt" = offer.payAmount.raw.toNat)
      (hbuy : l.units "buy_amt" = offer.buyAmount.raw.toNat) :
      Chapter id (some offer) l none

theorem Chapter.isAbout {id : OrderId} {before after : Option Offer} {l : Log}
    (h : Chapter id before l after) : l.IsAbout id := by
  cases h with
  | made _ _ _ h | bumped _ _ h | reduced _ _ _ h | emptied _ _ h | killed _ _ h => exact h.2

theorem Chapter.isOf_of_none {id : OrderId} {l : Log} {after : Option Offer}
    (h : Chapter id none l after) : l.IsOf .make id := by
  cases h with
  | made _ _ _ hof => exact hof

theorem Chapter.offer_of_made {id : OrderId} {before after : Option Offer} {l : Log}
    (h : Chapter id before l after) (hof : l.IsOf .make id) :
    ∃ offer, after = some offer ∧ l.units "pay_amt" = offer.payAmount.raw.toNat ∧
      l.units "buy_amt" = offer.buyAmount.raw.toNat ∧ 0 < offer.payAmount.raw.toNat ∧
      0 < offer.buyAmount.raw.toNat := by
  cases h with
  | made _ _ offer _ hpay hbuy hp hb => exact ⟨offer, rfl, hpay, hbuy, hp, hb⟩
  | bumped _ _ h | reduced _ _ _ h | emptied _ _ h | killed _ _ h => cases h.kind_unique hof

inductive Life (id : OrderId) : Option Offer → List Log → Option Offer → Prop
  | done (offer? : Option Offer) : Life id offer? [] offer?
  | next {before between after : Option Offer} {l : Log} {rest : List Log}
      (h : Chapter id before l between) (hrest : Life id between rest after) :
      Life id before (l :: rest) after

theorem Life.append {id : OrderId} {a b c : Option Offer} {ls ls' : List Log}
    (h : Life id a ls b) (h' : Life id b ls' c) : Life id a (ls ++ ls') c := by
  induction h with
  | done => exact h'
  | next hl _ ih => exact .next hl (ih h')

theorem Life.nil_of_none {id : OrderId} {trail : List Log} {after : Option Offer}
    (h : Life id none trail after) (hnew : ∀ l ∈ trail, ¬ l.IsOf .make id) :
    trail = [] ∧ after = none := by
  cases h with
  | done => exact ⟨rfl, rfl⟩
  | next hl _ => exact absurd hl.isOf_of_none (hnew _ (by simp))

section

variable {id : OrderId} {before : Option Offer} {left : Offer}

theorem Chapter.buy_pos {l : Log} (h : Chapter id before l (some left))
    (hbefore : ∀ offer, before = some offer → 0 < offer.buyAmount.raw.toNat) :
    0 < left.buyAmount.raw.toNat := by
  cases h with
  | made _ _ _ _ _ _ _ hpos => exact hpos
  | bumped => exact hbefore left rfl
  | reduced _ _ _ _ _ _ _ _ hpos => exact hpos

theorem Life.buy_pos {trail : List Log} (h : Life id before trail (some left))
    (hbefore : ∀ offer, before = some offer → 0 < offer.buyAmount.raw.toNat) :
    0 < left.buyAmount.raw.toNat := by
  generalize hafter : some left = after at h
  induction h with
  | done => exact hbefore left hafter.symm
  | next hl _ ih =>
      refine ih (fun offer hoffer => ?_) hafter
      subst hoffer
      exact hl.buy_pos hbefore

end

namespace Sandbox

theorem announce_isOf (s : Sandbox) (kind : EventKind) (id : OrderId) (offer : Offer) :
    (s.announce kind id offer).IsOf kind id := by
  refine ⟨rfl, ?_⟩
  simp only [Log.IsAbout, announce, stamp, Std.ExtTreeMap.getElem?_insert]
  simp

theorem units_announce (s : Sandbox) (kind : EventKind) (id : OrderId) (offer : Offer) :
    (s.announce kind id offer).units "pay_amt" = offer.payAmount.raw.toNat ∧
      (s.announce kind id offer).units "buy_amt" = offer.buyAmount.raw.toNat := by
  simp only [Log.units, announce, stamp, Std.ExtTreeMap.getElem?_insert]
  simp [Value.amount]

theorem recordFill_isOf (s : Sandbox) (id : OrderId) (offer : Offer) (quantity given : Wad) :
    (s.recordFill id offer quantity given).IsOf .take id := by
  refine ⟨rfl, ?_⟩
  simp only [Log.IsAbout, recordFill, stamp, Std.ExtTreeMap.getElem?_insert]
  simp

theorem units_recordFill (s : Sandbox) (id : OrderId) (offer : Offer) (quantity given : Wad) :
    (s.recordFill id offer quantity given).units "take_amt" = quantity.raw.toNat ∧
      (s.recordFill id offer quantity given).units "give_amt" = given.raw.toNat := by
  simp only [Log.units, recordFill, stamp, Std.ExtTreeMap.getElem?_insert]
  simp [Value.amount]

/-- What a logged command does to the book: it writes a chapter of one order and leaves the others
alone, and it counts an id further just where it makes an order under it. -/
structure Writes (s after : Sandbox) (log : Log) (id : OrderId) : Prop where
  chapter : Chapter id (s.offer? id) log (after.offer? id)
  others : ∀ other, other ≠ id → after.offer? other = s.offer? other
  ids : log.IsOf .make id ∧ id = s.nextId ∧ after.lastId = s.nextId ∨
    ¬ log.IsOf .make id ∧ after.lastId = s.lastId

theorem chapter_of_fill {id : OrderId} {offer : Offer} {quantity given : Wad} (s : Sandbox)
    (h : offer.IsFill quantity given) :
    Chapter id (some offer) (s.recordFill id offer quantity given)
      (remainder? offer quantity given) := by
  have hof := s.recordFill_isOf id offer quantity given
  obtain ⟨htake, hgive⟩ := s.units_recordFill id offer quantity given
  rcases remainder?_cases h with ⟨hnone, hpay, hbuy⟩ | ⟨rest, hrest, hpay, hbuy, hp, hb⟩
  · rw [hnone]
    exact .emptied offer _ hof (htake.trans hpay) (hgive.trans hbuy)
  · rw [hrest]
    refine .reduced offer rest _ hof ?_ (by rw [htake]; exact hpay) (by rw [hgive]; exact hbuy) hp hb
    rw [htake, hgive]
    exact h.given_eq

theorem Executes.writes {s after : Sandbox} {log : Log} (h : s.Executes after [log]) :
    ∃ id, s.Writes after log id := by
  generalize hlogs : [log] = logs at h
  have notMake {l : Log} {kind : EventKind} {id : OrderId} (h : l.IsOf kind id)
      (hne : kind ≠ .make) : ¬ l.IsOf .make id := fun h' => hne (h.kind_unique h')
  cases h with
  | configured => cases hlogs
  | made terms haccepts =>
      obtain rfl := List.singleton_inj.mp hlogs
      have hof := s.announce_isOf .make s.nextId (s.offerOf terms)
      refine ⟨s.nextId, ?_, fun other hne => ?_, .inl ⟨hof, rfl, rfl⟩⟩
      · obtain ⟨hpay, hbuy⟩ := s.units_announce .make s.nextId (s.offerOf terms)
        rw [offer?_insert, if_pos rfl]
        exact .made _ _ _ hof hpay hbuy haccepts.pay_pos haccepts.buy_pos
      · rw [offer?_insert, if_neg (Ne.symm hne)]
  | bumped id offer hoffer =>
      obtain rfl := List.singleton_inj.mp hlogs
      have hof := s.announce_isOf .bump id offer
      refine ⟨id, ?_, fun _ _ => rfl, .inr ⟨notMake hof nofun, rfl⟩⟩
      rw [hoffer]
      exact .bumped offer _ hof
  | taken id offer quantity given hoffer hfill =>
      obtain rfl := List.singleton_inj.mp hlogs
      have hof := s.recordFill_isOf id offer quantity given
      refine ⟨id, ?_, fun other hne => ?_, .inr ⟨notMake hof nofun, rfl⟩⟩
      · rw [hoffer, offer?_setOffer, if_pos rfl]
        exact chapter_of_fill s hfill
      · rw [offer?_setOffer, if_neg (Ne.symm hne)]
  | killed id offer hoffer =>
      obtain rfl := List.singleton_inj.mp hlogs
      have hof := s.announce_isOf .kill id offer
      refine ⟨id, ?_, fun other hne => ?_, .inr ⟨notMake hof nofun, rfl⟩⟩
      · obtain ⟨hpay, hbuy⟩ := s.units_announce .kill id offer
        rw [hoffer, offer?_setOffer, if_pos rfl]
        exact .killed offer _ hof hpay hbuy
      · rw [offer?_setOffer, if_neg (Ne.symm hne)]

theorem offer?_mine (s : Sandbox) (logs : List Log) (id : OrderId) :
    (s.mine logs).offer? id = s.offer? id := by
  rw [mine_eq]
  rfl

theorem SameBook.offer?_eq {s t : Sandbox} (h : s.SameBook t) (id : OrderId) :
    t.offer? id = s.offer? id :=
  offer?_of_offers_eq h.offers id

theorem move_writes (s : Sandbox) (m : Move) (l : Log) (h : l ∈ s.receiptLogs m) :
    s.receiptLogs m = [l] ∧ ∃ id, s.Writes (s.move m) l id := by
  cases s.move_moves m with
  | idle hlogs | blank hlogs => simp [hlogs] at h
  | logged after log hexec hlogs hafter =>
      obtain rfl : l = log := by simpa [hlogs] using h
      obtain ⟨id, hw⟩ := hexec.writes
      refine ⟨hlogs, id, ?_⟩
      rw [hafter]
      refine ⟨?_, fun other hne => ?_, ?_⟩
      · rw [offer?_mine]
        exact hw.chapter
      · rw [offer?_mine]
        exact hw.others other hne
      · rw [mine_eq]
        exact hw.ids

theorem move_quiet {s : Sandbox} {m : Move} (h : s.receiptLogs m = []) :
    s.SameBook (s.move m) := by
  cases s.move_moves m with
  | idle _ hsame | blank _ hsame => exact hsame
  | logged after log _ hlogs => simp [hlogs] at h

/-- Whatever happens on a market, the logs about an order are its life. -/
theorem move_life (s : Sandbox) (m : Move) (id : OrderId) :
    Life id (s.offer? id) (History.about (s.receiptLogs m) id) ((s.move m).offer? id) := by
  cases hlogs : s.receiptLogs m with
  | nil =>
      rw [(move_quiet hlogs).offer?_eq]
      exact .done _
  | cons log rest =>
      obtain ⟨hone, written, hw⟩ := s.move_writes m log (by simp [hlogs])
      obtain rfl : rest = [] := (List.cons.inj (hlogs.symm.trans hone)).2
      by_cases hid : id = written
      · subst hid
        rw [History.about, List.filter_cons_of_pos (by simpa using hw.chapter.isAbout)]
        exact .next hw.chapter (.done _)
      · have hother : ¬ log.IsAbout id := fun h => hid (h.unique hw.chapter.isAbout)
        rw [History.about, List.filter_cons_of_neg (by simpa using hother), hw.others id hid]
        exact .done _

theorem run_life (s : Sandbox) (moves : List Move) (id : OrderId) :
    Life id (s.offer? id) (History.about (s.logsOf moves) id) ((s.run moves).offer? id) := by
  induction moves generalizing s with
  | nil => exact .done _
  | cons m rest ih =>
      rw [run_cons, logsOf, History.about_append]
      exact (s.move_life m id).append (ih (s.move m))

end Sandbox

end Barter
