import Barter.Proofs.Client.Overheard
import Mathlib.Data.Set.Card

namespace Barter

open Client

namespace Exchange

variable {market : Address} {id other : OrderId} {e : Exchange}

def Asks (market : Address) (id : OrderId) (e : Exchange) : Prop :=
  e.contract = market ∧ e.method = (Query.offer id).method ∧ e.args = (Query.offer id).args

def Denies (market : Address) (id : OrderId) (e : Exchange) : Prop :=
  e.Asks market id ∧ ∃ values, e.answer = .ok values ∧ values[5]? = some (.bool false)

theorem Asks.unique (h : e.Asks market id) (h' : e.Asks market other) : id = other := by
  have hvalue : Value.number id = .number other := List.singleton_inj.mp (h.2.2.symm.trans h'.2.2)
  have hword := congrArg Word.toUInt64? (Value.uint.inj hvalue)
  rw [Word.toUInt64?_ofUInt64, Word.toUInt64?_ofUInt64] at hword
  exact Option.some.inj hword

end Exchange

theorem size_eq_ncard (t : Std.ExtTreeSet OrderId) : t.size = {id | id ∈ t}.ncard := by
  have hnodup : t.toList.Nodup := by
    refine Std.ExtTreeSet.distinct_toList.imp ?_
    rintro id _ hne rfl
    exact hne Std.ReflCmp.compare_self
  have hset : {id | id ∈ t} = (t.toList.toFinset : Set OrderId) := by
    ext id
    simp
  rw [hset, Set.ncard_coe_finset, List.toFinset_card_of_nodup hnodup, Std.ExtTreeSet.length_toList]

namespace Client

variable {σ : Type} {market : Address} {id : OrderId}

/-- A lookup of an id that is not known to be gone asks for it once. The id is known to be gone from
then on just if the answer denies it; a failure and an order leave the cache as it is. -/
theorem order_overheard (l : Ledger σ) {v : View (Overheard σ)} (h : id ∉ v.absent) :
    ∃ e after, e.Asks market id ∧
      (e.Denies market id ∧
          order l.overheard market id v =
            (.ok .absent, ⟨v.absent.insert id, ⟨after, v.ledger.heard ++ [e]⟩⟩) ∨
        ¬ e.Denies market id ∧ (order l.overheard market id v).1 ≠ .ok .absent ∧
          (order l.overheard market id v).2 = ⟨v.absent, ⟨after, v.ledger.heard ++ [e]⟩⟩) := by
  rcases hcall : l.call market (Query.offer id).method (Query.offer id).args v.ledger.inner with
    ⟨answer, after⟩
  let e : Exchange := ⟨market, (Query.offer id).method, (Query.offer id).args, answer⟩
  have hasks : e.Asks market id := ⟨rfl, rfl, rfl⟩
  have hdenies : e.Denies market id ↔
      (answer >>= fun values => Lookup.ofSlot market id ⟨"offers", values⟩) = .ok .absent := by
    rw [bind_eq_ok_iff, Exchange.Denies, and_iff_right hasks]
    simp only [Lookup.ofSlot_eq_absent_iff]
    rfl
  have hordered := order_of_not_mem h (Ledger.overheard_call hcall)
  refine ⟨e, after, hasks, ?_⟩
  rw [hdenies, hordered]
  cases answer >>= fun values => Lookup.ofSlot market id ⟨"offers", values⟩ with
  | error cause => exact .inr ⟨nofun, nofun, rfl⟩
  | ok found =>
      cases found with
      | present o => exact .inr ⟨nofun, nofun, rfl⟩
      | absent => exact .inl ⟨rfl, rfl⟩

theorem not_mem_of_orders {l : Ledger σ} {v : View σ} {listed : List Order}
    (h : (orders l market v).1 = .ok listed) : ∀ o ∈ listed, o.id ∉ v.absent := by
  rcases hcall : l.call market Query.lastOfferId.method Query.lastOfferId.args v.ledger with
    ⟨answer, after⟩
  have hw := lastOrderId_snd hcall
  rw [orders, Step.bind_apply] at h
  generalize lastOrderId l market v = first at h hw
  obtain ⟨e | last, w⟩ := first
  · cases h
  · obtain rfl : w = ⟨v.absent, after⟩ := hw
    have hlt := last.toNat_lt
    obtain ⟨new, rfl, hlists⟩ := ordersFrom_lists (n := 1) (by simp only [UInt64.size]; omega)
      (Prod.ext h rfl)
    exact hlists.fresh

theorem lastOrderId_overheard (l : Ledger σ) (market : Address) (v : View (Overheard σ)) :
    ∃ e after, (∀ id, ¬ e.Asks market id) ∧
      (lastOrderId l.overheard market v).2 = ⟨v.absent, ⟨after, v.ledger.heard ++ [e]⟩⟩ := by
  rcases hcall : l.call market Query.lastOfferId.method Query.lastOfferId.args v.ledger.inner with
    ⟨answer, after⟩
  refine ⟨_, after, ?_, lastOrderId_snd (Ledger.overheard_call hcall)⟩
  have hother : Query.lastOfferId.method ≠ "offers" := by decide
  rintro id ⟨_, hmethod, _⟩
  exact hother hmethod

end Client

inductive Reading where
  | lastOrderId
  | order (id : OrderId)
  | orders

namespace Reading

variable {σ : Type} (l : Ledger σ) (market : Address)

def read (v : View σ) : Reading → View σ
  | lastOrderId => (Client.lastOrderId l market v).2
  | order id => (Client.order l market id v).2
  | orders => (Client.orders l market v).2

def readAll (v : View σ) (readings : List Reading) : View σ :=
  readings.foldl (read l market) v

def lookups (first count : Nat) : List Reading :=
  (List.range' first count).map fun n => .order (.ofNat n)

variable {l market}

theorem ordersFrom_reads (first count : Nat) (found : List Order) (v : View σ) :
    ∃ k, (ordersFrom l market (.ofNat first) found count v).2 =
      readAll l market v (lookups first k) := by
  induction count generalizing first found v with
  | zero => exact ⟨0, rfl⟩
  | succ count ih =>
      have hnext : UInt64.ofNat first + 1 = UInt64.ofNat (first + 1) :=
        (UInt64.ofNat_add first 1).symm
      have hfirst (k : Nat) : readAll l market v (lookups first (k + 1)) =
          readAll l market (Client.order l market (.ofNat first) v).2 (lookups (first + 1) k) := by
        rw [lookups, List.range'_succ]
        rfl
      rw [ordersFrom_succ, hnext]
      generalize hlooked : Client.order l market (.ofNat first) v = looked at hfirst
      obtain ⟨answer, w⟩ := looked
      cases answer with
      | error e => exact ⟨1, (hfirst 0).symm⟩
      | ok found? =>
          cases found? with
          | present o =>
              obtain ⟨k, hk⟩ := ih (first + 1) (o :: found) w
              exact ⟨k + 1, hk.trans (hfirst k).symm⟩
          | absent =>
              obtain ⟨k, hk⟩ := ih (first + 1) found w
              exact ⟨k + 1, hk.trans (hfirst k).symm⟩

/-- A listing asks for the last id and looks up one id after the other. -/
theorem orders_reads (v : View σ) :
    ∃ k, (Client.orders l market v).2 = readAll l market v (lastOrderId :: lookups 1 k) := by
  have hfirst (k : Nat) : readAll l market v (lastOrderId :: lookups 1 k) =
      readAll l market (Client.lastOrderId l market v).2 (lookups 1 k) := rfl
  simp only [hfirst]
  rw [Client.orders, Step.bind_apply]
  rcases Client.lastOrderId l market v with ⟨e | last, w⟩
  · exact ⟨0, rfl⟩
  · exact ordersFrom_reads 1 last.toNat [] w

/-- What holds of a client and is kept by single requests holds after any readings. -/
theorem readAll_induction {P : View σ → Prop}
    (hlast : ∀ v, P v → P (Client.lastOrderId l market v).2)
    (horder : ∀ v id, P v → P (Client.order l market id v).2) {v : View σ} (hv : P v)
    (readings : List Reading) : P (readAll l market v readings) := by
  have hlookups (first count : Nat) (v : View σ) (hv : P v) :
      P (readAll l market v (lookups first count)) := by
    induction count generalizing first v with
    | zero => exact hv
    | succ count ih =>
        rw [lookups, List.range'_succ]
        exact ih (first + 1) _ (horder v _ hv)
  induction readings generalizing v with
  | nil => exact hv
  | cons reading rest ih =>
      refine ih ?_
      cases reading with
      | lastOrderId => exact hlast v hv
      | order id => exact horder v id hv
      | orders =>
          obtain ⟨k, hk⟩ : ∃ k, read l market v orders =
            readAll l market v (lastOrderId :: lookups 1 k) := orders_reads v
          rw [hk]
          exact hlookups 1 k _ (hlast v hv)

theorem readAll_unheard (v : View (Overheard σ)) (readings : List Reading) :
    (readAll l.overheard market v readings).unheard = readAll l market v.unheard readings := by
  induction readings generalizing v with
  | nil => rfl
  | cons reading rest ih =>
      have hread : (read l.overheard market v reading).unheard =
          read l market v.unheard reading := by
        cases reading with
        | lastOrderId => exact congrArg Prod.snd (Work.Alike.lastOrderId l market v).symm
        | order id => exact congrArg Prod.snd (Work.Alike.order l market id v).symm
        | orders => exact congrArg Prod.snd (Work.Alike.orders l market v).symm
      refine (ih _).trans ?_
      rw [hread]
      rfl

end Reading

section

variable {σ : Type} {l : Ledger σ} {market : Address} {v : View (Overheard σ)} {id : OrderId}

/-- The client knows just those ids to be gone that were denied, and has asked for none of them
since. -/
structure Faithful (market : Address) (v : View (Overheard σ)) : Prop where
  mem_iff : ∀ id, id ∈ v.absent ↔ ∃ e ∈ v.ledger.heard, e.Denies market id
  never_again : v.ledger.heard.Pairwise fun e e' =>
    ∀ id, e.Denies market id → ¬ e'.Asks market id

namespace Faithful

theorem start (market : Address) (s : σ) : Faithful market ⟨∅, ⟨s, []⟩⟩ :=
  ⟨fun _ => iff_of_false Std.ExtTreeSet.not_mem_empty nofun, .nil⟩

theorem hear (h : Faithful market v) {e : Exchange} {absent : Std.ExtTreeSet OrderId} {after : σ}
    (hfresh : ∀ id, e.Asks market id → id ∉ v.absent)
    (hmem : ∀ id, id ∈ absent ↔ id ∈ v.absent ∨ e.Denies market id) :
    Faithful market ⟨absent, ⟨after, v.ledger.heard ++ [e]⟩⟩ := by
  refine ⟨fun id => ?_, List.pairwise_append.mpr
    ⟨h.never_again, List.pairwise_singleton _ _, fun old hold last hlast id hdenies hasks => ?_⟩⟩
  · rw [hmem, h.mem_iff]
    simp only [List.mem_append, List.mem_singleton, or_and_right, exists_or, exists_eq_left]
  · obtain rfl := List.mem_singleton.mp hlast
    exact hfresh id hasks ((h.mem_iff id).mpr ⟨old, hold, hdenies⟩)

theorem lastOrderId (h : Faithful market v) :
    Faithful market (Client.lastOrderId l.overheard market v).2 := by
  obtain ⟨e, after, hasks, hw⟩ := lastOrderId_overheard l market v
  rw [hw]
  exact h.hear (fun id hid => absurd hid (hasks id)) fun id =>
    (or_iff_left fun hdenies => hasks id hdenies.1).symm

theorem order (h : Faithful market v) (id : OrderId) :
    Faithful market (Client.order l.overheard market id v).2 := by
  by_cases hmem : id ∈ v.absent
  · rw [order_of_mem hmem]
    exact h
  · obtain ⟨e, after, hasks, hend⟩ := order_overheard l hmem
    -- what is asked for was not denied before: an id that was would be in the cache
    have hfresh (j : OrderId) (hj : e.Asks market j) : j ∉ v.absent := by
      obtain rfl := hj.unique hasks
      exact hmem
    rcases hend with ⟨hdenies, hw⟩ | ⟨hnot, _, hw⟩
    · rw [hw]
      refine h.hear hfresh fun j => Std.ExtTreeSet.mem_insert.trans ?_
      rw [Std.LawfulEqOrd.compare_eq_iff_eq, or_comm]
      refine or_congr_right ⟨?_, fun hj => hasks.unique hj.1⟩
      rintro rfl
      exact hdenies
    · rw [hw]
      refine h.hear hfresh fun j => (or_iff_left ?_).symm
      rintro hj
      obtain rfl := hj.1.unique hasks
      exact hnot hj

theorem readAll (h : Faithful market v) (readings : List Reading) :
    Faithful market (Reading.readAll l.overheard market v readings) :=
  Reading.readAll_induction (fun _ => lastOrderId) (fun _ id h => h.order id) h readings

end Faithful

structure Settled (market : Address) (id : OrderId) (before : List Exchange)
    (v : View (Overheard σ)) : Prop where
  mem : id ∈ v.absent
  unasked : ∃ new, v.ledger.heard = before ++ new ∧ ∀ e ∈ new, ¬ e.Asks market id

namespace Settled

variable {before : List Exchange}

theorem hear (h : Settled market id before v) {e : Exchange} {absent : Std.ExtTreeSet OrderId}
    {after : σ} (hmem : id ∈ absent) (hasks : ¬ e.Asks market id) :
    Settled market id before ⟨absent, ⟨after, v.ledger.heard ++ [e]⟩⟩ := by
  obtain ⟨new, hnew, hunasked⟩ := h.unasked
  refine ⟨hmem, new ++ [e], ?_, ?_⟩
  · rw [hnew, List.append_assoc]
  · exact List.forall_mem_append.mpr ⟨hunasked, List.forall_mem_singleton.mpr hasks⟩

theorem lastOrderId (h : Settled market id before v) :
    Settled market id before (Client.lastOrderId l.overheard market v).2 := by
  obtain ⟨e, after, hasks, hw⟩ := lastOrderId_overheard l market v
  rw [hw]
  exact h.hear h.mem (hasks id)

theorem order (h : Settled market id before v) (other : OrderId) :
    Settled market id before (Client.order l.overheard market other v).2 := by
  by_cases hmem : other ∈ v.absent
  · rw [order_of_mem hmem]
    exact h
  · obtain ⟨e, after, hasks, hend⟩ := order_overheard l hmem
    have hother : ¬ e.Asks market id := by
      intro hid
      obtain rfl := hid.unique hasks
      exact hmem h.mem
    rcases hend with ⟨_, hw⟩ | ⟨_, _, hw⟩
    · rw [hw]
      exact h.hear (Std.ExtTreeSet.mem_insert.mpr (.inr h.mem)) hother
    · rw [hw]
      exact h.hear h.mem hother

theorem readAll (h : Settled market id before v) (readings : List Reading) :
    Settled market id before (Reading.readAll l.overheard market v readings) :=
  Reading.readAll_induction (fun _ => lastOrderId) (fun _ other h => h.order other) h readings

end Settled

theorem settled_of_absent (h : (Client.order l.overheard market id v).1 = .ok .absent) :
    let w := (Client.order l.overheard market id v).2
    Settled market id w.ledger.heard w := by
  have hunasked (heard : List Exchange) :
      ∃ new, heard = heard ++ new ∧ ∀ e ∈ new, ¬ e.Asks market id :=
    ⟨[], (List.append_nil heard).symm, List.forall_mem_nil _⟩
  by_cases hmem : id ∈ v.absent
  · rw [order_of_mem hmem]
    exact ⟨hmem, hunasked _⟩
  · obtain ⟨e, after, _, hend⟩ := order_overheard l hmem
    rcases hend with ⟨_, hw⟩ | ⟨_, hne, _⟩
    · rw [hw]
      exact ⟨Std.ExtTreeSet.mem_insert_self, hunasked _⟩
    · exact absurd h hne

end

/-- Whatever a ledger answers, a client knows just those ids to be gone that an answer denied, and
asks for none of them again. -/
theorem absence_asked_once {σ : Type} (l : Ledger σ) (market : Address) (start : σ)
    (readings : List Reading) :
    let v := Reading.readAll l.overheard market ⟨∅, ⟨start, []⟩⟩ readings
    let denied : Set OrderId := {id | ∃ e ∈ v.ledger.heard, e.Denies market id}
    v.unheard = Reading.readAll l market ⟨∅, start⟩ readings ∧
    (∀ id, id ∈ v.absent ↔ id ∈ denied) ∧ v.absent.size = denied.ncard ∧
    (v.ledger.heard.Pairwise fun e e' => ∀ id, e.Denies market id → ¬ e'.Asks market id) ∧
    (∀ id ∈ denied, Client.order l.overheard market id v = (.ok .absent, v)) ∧
    (∀ id ∉ denied, ∃ e after, e.Asks market id ∧
      (e.Denies market id ∧
          Client.order l.overheard market id v =
            (.ok .absent, ⟨v.absent.insert id, ⟨after, v.ledger.heard ++ [e]⟩⟩) ∨
        ¬ e.Denies market id ∧ (Client.order l.overheard market id v).1 ≠ .ok .absent ∧
          (Client.order l.overheard market id v).2 =
            ⟨v.absent, ⟨after, v.ledger.heard ++ [e]⟩⟩)) ∧
    (∀ id, (Client.order l.overheard market id v).1 = .ok .absent → ∀ later,
      let w := (Client.order l.overheard market id v).2
      let u := Reading.readAll l.overheard market w later
      Client.order l.overheard market id u = (.ok .absent, u) ∧
        ∃ new, u.ledger.heard = w.ledger.heard ++ new ∧ ∀ e ∈ new, ¬ e.Asks market id) ∧
    (∃ k, (Client.orders l.overheard market v).2 =
      Reading.readAll l.overheard market v (.lastOrderId :: Reading.lookups 1 k)) ∧
    ∀ listed, (Client.orders l.overheard market v).1 = .ok listed → ∀ o ∈ listed, o.id ∉ denied := by
  intro v denied
  have hv : Faithful market v := (Faithful.start market start).readAll readings
  have hset : {id | id ∈ v.absent} = denied := Set.ext hv.mem_iff
  refine ⟨Reading.readAll_unheard _ readings, hv.mem_iff, ?_, hv.never_again,
    fun id hid => order_of_mem ((hv.mem_iff id).mpr hid),
    fun id hid => order_overheard l (mt (hv.mem_iff id).mp hid), fun id habsent later => ?_,
    Reading.orders_reads v, fun listed hlisted o ho hid => ?_⟩
  · rw [size_eq_ncard, hset]
  · have hu := (settled_of_absent habsent).readAll (l := l) later
    exact ⟨order_of_mem hu.mem, hu.unasked⟩
  · exact not_mem_of_orders hlisted o ho ((hv.mem_iff o.id).mpr hid)

end Barter
