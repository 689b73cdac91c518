import Barter.Proofs.Client.Cache

namespace Barter

open Client

structure Order.IsIn (o : Order) (values : List Value) : Prop where
  payAmount : values[0]? = some (.amount o.payAmount)
  payToken : values[1]? = some (.address o.payToken)
  buyAmount : values[2]? = some (.amount o.buyAmount)
  buyToken : values[3]? = some (.address o.buyToken)
  maker : values[4]? = some (.address o.maker)
  active : values[5]? = some (.bool true)
  timestamp : values[6]? = some (.number o.timestamp)
  buy_pos : 0 < o.buyAmount.raw.toNat

theorem Order.isIn_of_ofSlot {market : Address} {id : OrderId} {o : Outputs} {found : Order}
    (hactive : o.values[5]? = some (.bool true)) (h : Order.ofSlot market id o = .ok found) :
    found.market = market ∧ found.id = id ∧ found.IsIn o.values := by
  unfold Order.ofSlot at h
  obtain ⟨buyAmount, hbuy, h⟩ := bind_eq_ok_iff.mp h
  split at h
  · cases h
  next hzero =>
    obtain ⟨maker, hmaker, h⟩ := bind_eq_ok_iff.mp h
    obtain ⟨payToken, hpayToken, h⟩ := bind_eq_ok_iff.mp h
    obtain ⟨payAmount, hpay, h⟩ := bind_eq_ok_iff.mp h
    obtain ⟨buyToken, hbuyToken, h⟩ := bind_eq_ok_iff.mp h
    obtain ⟨timestamp, htime, h⟩ := bind_eq_ok_iff.mp h
    cases h
    exact ⟨rfl, rfl, Outputs.amount_eq_ok_iff.mp hpay, Outputs.address_eq_ok_iff.mp hpayToken,
      Outputs.amount_eq_ok_iff.mp hbuy, Outputs.address_eq_ok_iff.mp hbuyToken,
      Outputs.address_eq_ok_iff.mp hmaker, hactive, Outputs.number_eq_ok_iff.mp htime,
      Wad.isZero_eq_false_iff.mp (Bool.eq_false_iff.mpr hzero)⟩

theorem Order.IsIn.ofSlot_eq {o : Outputs} {found : Order} (h : found.IsIn o.values) :
    Order.ofSlot found.market found.id o = .ok found := by
  rw [Order.ofSlot, Outputs.amount_eq_ok_iff.mpr h.buyAmount, Outputs.address_eq_ok_iff.mpr h.maker,
    Outputs.address_eq_ok_iff.mpr h.payToken, Outputs.amount_eq_ok_iff.mpr h.payAmount,
    Outputs.address_eq_ok_iff.mpr h.buyToken, Outputs.number_eq_ok_iff.mpr h.timestamp]
  simp only [bind, Except.bind, Wad.isZero_eq_false_iff.mpr h.buy_pos]
  rfl

theorem Lookup.ofSlot_eq_present_iff {market : Address} {id : OrderId} {o : Outputs}
    {found : Order} :
    Lookup.ofSlot market id o = .ok (.present found) ↔
      found.market = market ∧ found.id = id ∧ found.IsIn o.values := by
  rw [Lookup.ofSlot, bind_eq_ok_iff]
  constructor
  · rintro ⟨active, hactive, h⟩
    cases active with
    | false => cases h
    | true =>
        refine Order.isIn_of_ofSlot (Outputs.bool_eq_ok_iff.mp hactive) ?_
        cases hread : Order.ofSlot market id o with
        | error e =>
            rw [hread] at h
            cases h
        | ok read =>
            rw [hread] at h
            cases h
            rfl
  · rintro ⟨rfl, rfl, h⟩
    refine ⟨true, Outputs.bool_eq_ok_iff.mpr h.active, ?_⟩
    rw [if_pos rfl, h.ofSlot_eq]
    rfl

namespace Exchange

variable {market : Address} {id : OrderId} {o : Order} {e : Exchange}

def Shows (market : Address) (o : Order) (e : Exchange) : Prop :=
  e.Asks market o.id ∧ o.market = market ∧ ∃ values, e.answer = .ok values ∧ o.IsIn values

def Fails (market : Address) (id : OrderId) (cause : Fault) (e : Exchange) : Prop :=
  e.Asks market id ∧
    (e.answer = .error cause ∨
      ∃ values, e.answer = .ok values ∧
        Lookup.ofSlot market id ⟨(Query.offer id).method, values⟩ = .error cause)

def IsLegible (market : Address) (e : Exchange) : Prop :=
  ∃ id, e.Denies market id ∨ ∃ o, o.id = id ∧ e.Shows market o

def AsksLast (market : Address) (e : Exchange) : Prop :=
  e.contract = market ∧ e.method = Query.lastOfferId.method ∧ e.args = Query.lastOfferId.args

def Counts (last : OrderId) (e : Exchange) : Prop :=
  ∃ values, e.answer = .ok values ∧ values[0]? = some (.number last)

def FailsLast (cause : Fault) (e : Exchange) : Prop :=
  e.answer = .error cause ∨
    ∃ values, e.answer = .ok values ∧
      Outputs.number ⟨Query.lastOfferId.method, values⟩ 0 = .error cause

theorem Denies.not_shows (h : e.Denies market id) : ¬ e.Shows market o := by
  obtain ⟨_, values, hvalues, hinactive⟩ := h
  rintro ⟨_, _, values', hvalues', hslot⟩
  obtain rfl := Except.ok.inj (hvalues.symm.trans hvalues')
  exact nomatch hinactive.symm.trans hslot.active

theorem Shows.id_eq (h : e.Shows market o) (hasks : e.Asks market id) : o.id = id :=
  h.1.unique hasks

theorem Shows.unique {o' : Order} (h : e.Shows market o) (h' : e.Shows market o') : o = o' := by
  obtain ⟨hasks, rfl, values, hvalues, hslot⟩ := h
  obtain ⟨hasks', hmarket, values', hvalues', hslot'⟩ := h'
  obtain rfl := Except.ok.inj (hvalues.symm.trans hvalues')
  have hread := hslot.ofSlot_eq (o := ⟨(Query.offer o.id).method, values⟩)
  have hread' := hslot'.ofSlot_eq (o := ⟨(Query.offer o.id).method, values⟩)
  rw [hmarket, ← hasks.unique hasks', hread] at hread'
  exact Except.ok.inj hread'

theorem Fails.not_isLegible {cause : Fault} (h : e.Fails market id cause) :
    ¬ e.IsLegible market := by
  obtain ⟨hasks, hfails⟩ := h
  rintro ⟨other, ⟨hasks', values, hvalues, hinactive⟩ |
    ⟨o, rfl, hasks', rfl, values, hvalues, hslot⟩⟩
  · obtain rfl := hasks.unique hasks'
    rcases hfails with herror | ⟨values', hvalues', hread⟩
    · cases hvalues.symm.trans herror
    · obtain rfl := Except.ok.inj (hvalues.symm.trans hvalues')
      have hslot : (⟨(Query.offer id).method, values⟩ : Outputs).values[5]? =
        some (.bool false) := hinactive
      cases (Lookup.ofSlot_eq_absent_iff.mpr hslot).symm.trans hread
  · obtain rfl := hasks.unique hasks'
    rcases hfails with herror | ⟨values', hvalues', hread⟩
    · cases hvalues.symm.trans herror
    · obtain rfl := Except.ok.inj (hvalues.symm.trans hvalues')
      cases (Lookup.ofSlot_eq_present_iff.mpr ⟨rfl, rfl, hslot⟩).symm.trans hread

theorem Counts.number_eq {last : OrderId} (h : e.Counts last) {values : List Value}
    (hvalues : e.answer = .ok values) :
    Outputs.number ⟨Query.lastOfferId.method, values⟩ 0 = .ok last := by
  obtain ⟨values', hvalues', hlast⟩ := h
  obtain rfl := Except.ok.inj (hvalues.symm.trans hvalues')
  exact Outputs.number_eq_ok_iff.mpr hlast

theorem Counts.unique {last last' : OrderId} (h : e.Counts last) (h' : e.Counts last') :
    last = last' := by
  obtain ⟨values, hvalues, _⟩ := id h
  exact Except.ok.inj ((h.number_eq hvalues).symm.trans (h'.number_eq hvalues))

theorem FailsLast.not_counts {cause : Fault} (h : e.FailsLast cause) (last : OrderId) :
    ¬ e.Counts last := by
  intro hcounts
  rcases h with herror | ⟨values, hvalues, hread⟩
  · obtain ⟨values, hvalues, _⟩ := hcounts
    cases hvalues.symm.trans herror
  · cases (hcounts.number_eq hvalues).symm.trans hread

end Exchange

/-- How a listing of ids goes: one id after the other is asked for, up to the first answer that is
none. -/
inductive Listing (market : Address) :
    List OrderId → List Exchange → Except Failure (List Order) → Prop
  | done : Listing market [] [] (.ok [])
  | denied {id : OrderId} {ids : List OrderId} {e : Exchange} {asked : List Exchange}
      {result : Except Failure (List Order)} (h : e.Denies market id)
      (hrest : Listing market ids asked result) : Listing market (id :: ids) (e :: asked) result
  | shown {o : Order} {ids : List OrderId} {e : Exchange} {asked : List Exchange}
      {result : Except Failure (List Order)} (h : e.Shows market o)
      (hrest : Listing market ids asked result) :
      Listing market (o.id :: ids) (e :: asked) (result.map (o :: ·))
  | failed {id : OrderId} (ids : List OrderId) {e : Exchange} {cause : Fault}
      (h : e.Fails market id cause) : Listing market (id :: ids) [e] (.error (.queryFailed cause))

namespace Listing

variable {market : Address} {ids : List OrderId} {asked : List Exchange}
  {result : Except Failure (List Order)}

theorem asks (h : Listing market ids asked result) :
    ∃ queried rest, ids = queried ++ rest ∧
      List.Forall₂ (fun id e => e.Asks market id) queried asked := by
  induction h with
  | done => exact ⟨[], [], rfl, .nil⟩
  | denied he _ ih =>
      obtain ⟨queried, rest, rfl, hasks⟩ := ih
      exact ⟨_ :: queried, rest, rfl, .cons he.1 hasks⟩
  | shown he _ ih =>
      obtain ⟨queried, rest, rfl, hasks⟩ := ih
      exact ⟨_ :: queried, rest, rfl, .cons he.1 hasks⟩
  | failed ids he => exact ⟨[_], ids, rfl, .cons he.1 .nil⟩

theorem legible_of_ok {listed : List Order} (h : Listing market ids asked result)
    (hok : result = .ok listed) : ∀ e ∈ asked, e.IsLegible market := by
  induction h generalizing listed with
  | done => exact nofun
  | denied he _ ih => exact List.forall_mem_cons.mpr ⟨⟨_, .inl he⟩, ih hok⟩
  | @shown o _ _ _ result he _ ih =>
      cases result with
      | error failure => cases hok
      | ok orders => exact List.forall_mem_cons.mpr ⟨⟨_, .inr ⟨o, rfl, he⟩⟩, ih rfl⟩
  | failed => cases hok

theorem asks_of_ok {listed : List Order} (h : Listing market ids asked result)
    (hok : result = .ok listed) : List.Forall₂ (fun id e => e.Asks market id) ids asked := by
  induction h generalizing listed with
  | done => exact .nil
  | denied he _ ih => exact .cons he.1 (ih hok)
  | @shown _ _ _ _ result he _ ih =>
      cases result with
      | error failure => cases hok
      | ok orders => exact .cons he.1 (ih rfl)
  | failed => cases hok

theorem mem_of_ok {listed : List Order} (h : Listing market ids asked result)
    (hok : result = .ok listed) (o : Order) : o ∈ listed ↔ ∃ e ∈ asked, e.Shows market o := by
  induction h generalizing listed with
  | done =>
      cases hok
      exact iff_of_false nofun nofun
  | denied he _ ih =>
      rw [ih hok, List.exists_mem_cons_iff]
      exact (or_iff_right he.not_shows).symm
  | @shown shown _ _ _ result he _ ih =>
      cases result with
      | error failure => cases hok
      | ok orders =>
          cases hok
          rw [List.mem_cons, List.exists_mem_cons_iff, ih rfl]
          refine or_congr_left ⟨?_, fun ho => ho.unique he⟩
          rintro rfl
          exact he
  | failed => cases hok

theorem sublist_of_ok {listed : List Order} (h : Listing market ids asked result)
    (hok : result = .ok listed) : (listed.map (·.id)).Sublist ids := by
  induction h generalizing listed with
  | done =>
      cases hok
      exact .slnil
  | denied _ _ ih => exact (ih hok).cons _
  | @shown _ _ _ _ result _ _ ih =>
      cases result with
      | error failure => cases hok
      | ok orders =>
          cases hok
          exact (ih rfl).cons_cons _
  | failed => cases hok

theorem cause_of_error {failure : Failure} (h : Listing market ids asked result)
    (herror : result = .error failure) :
    ∃ told e id cause, asked = told ++ [e] ∧ (∀ e' ∈ told, e'.IsLegible market) ∧
      e.Fails market id cause ∧ failure = .queryFailed cause := by
  induction h with
  | done => cases herror
  | denied he _ ih =>
      obtain ⟨told, last, id, cause, rfl, hlegible, hfails, hfailure⟩ := ih herror
      exact ⟨_ :: told, last, id, cause, rfl, List.forall_mem_cons.mpr ⟨⟨_, .inl he⟩, hlegible⟩,
        hfails, hfailure⟩
  | @shown o _ _ _ result he _ ih =>
      cases result with
      | ok orders => cases herror
      | error found =>
          cases herror
          obtain ⟨told, last, id, cause, rfl, hlegible, hfails, hfailure⟩ := ih rfl
          exact ⟨_ :: told, last, id, cause, rfl,
            List.forall_mem_cons.mpr ⟨⟨_, .inr ⟨o, rfl, he⟩⟩, hlegible⟩, hfails, hfailure⟩
  | failed _ he =>
      cases herror
      exact ⟨[], _, _, _, rfl, nofun, he, rfl⟩

theorem ok_iff (h : Listing market ids asked result) :
    (∃ listed, result = .ok listed) ↔ ∀ e ∈ asked, e.IsLegible market := by
  refine ⟨fun ⟨listed, hok⟩ => h.legible_of_ok hok, fun hlegible => ?_⟩
  cases hresult : result with
  | ok listed => exact ⟨listed, rfl⟩
  | error failure =>
      obtain ⟨told, e, id, cause, rfl, _, hfails, _⟩ := h.cause_of_error hresult
      exact absurd (hlegible e (by simp)) hfails.not_isLegible

end Listing

def unknownFrom (absent : Std.ExtTreeSet OrderId) (n count : Nat) : List OrderId :=
  ((List.range' n count).map UInt64.ofNat).filter fun id => !absent.contains id

section

variable {absent : Std.ExtTreeSet OrderId} {n count : Nat}

theorem unknownFrom_of_mem (h : UInt64.ofNat n ∈ absent) :
    unknownFrom absent n (count + 1) = unknownFrom absent (n + 1) count := by
  rw [unknownFrom, List.range'_succ, List.map_cons, List.filter_cons_of_neg]
  · rfl
  · simp [Std.ExtTreeSet.contains_iff_mem.mpr h]

theorem unknownFrom_of_not_mem (h : UInt64.ofNat n ∉ absent) :
    unknownFrom absent n (count + 1) = UInt64.ofNat n :: unknownFrom absent (n + 1) count := by
  rw [unknownFrom, List.range'_succ, List.map_cons, List.filter_cons_of_pos]
  · rfl
  · rw [Bool.eq_false_iff.mpr (mt Std.ExtTreeSet.contains_iff_mem.mp h)]
    rfl

theorem mem_unknownFrom (hsize : n + count ≤ UInt64.size) {id : OrderId} :
    id ∈ unknownFrom absent n count ↔ n ≤ id.toNat ∧ id.toNat < n + count ∧ id ∉ absent := by
  have hcontains : (!absent.contains id) = true ↔ id ∉ absent := by
    rw [← Std.ExtTreeSet.contains_iff_mem, Bool.not_eq_true', Bool.eq_false_iff]
  rw [unknownFrom, List.mem_filter, hcontains, List.mem_map, ← and_assoc]
  refine and_congr_left fun _ => ⟨?_, fun ⟨hlow, hhigh⟩ =>
    ⟨id.toNat, List.mem_range'_1.mpr ⟨hlow, hhigh⟩, UInt64.ofNat_toNat⟩⟩
  rintro ⟨k, hk, rfl⟩
  have hrange := List.mem_range'_1.mp hk
  rwa [UInt64.toNat_ofNat_of_lt' (by omega)]

theorem unknownFrom_pairwise (hsize : n + count ≤ UInt64.size) :
    (unknownFrom absent n count).Pairwise (· < ·) := by
  refine (List.pairwise_map.mpr ?_).filter _
  refine (List.pairwise_lt_range' 1).imp_of_mem fun hj hk hlt => ?_
  have hk := (List.mem_range'_1.mp hk).2
  exact (UInt64.ofNat_lt_iff_lt (by omega) (by omega)).mpr hlt

theorem unknownFrom_insert (hsize : n + 1 + count ≤ UInt64.size) :
    unknownFrom (absent.insert (.ofNat n)) (n + 1) count = unknownFrom absent (n + 1) count := by
  refine List.filter_congr fun id hid => ?_
  obtain ⟨k, hk, rfl⟩ := List.mem_map.mp hid
  obtain ⟨hlow, hhigh⟩ := List.mem_range'_1.mp hk
  have hlt : UInt64.ofNat n < UInt64.ofNat k :=
    (UInt64.ofNat_lt_iff_lt (by omega) (by omega)).mpr hlow
  simp [Std.ExtTreeSet.contains_insert, UInt64.ne_of_lt hlt]

end

section

variable {σ : Type} {id : OrderId}

/-- A lookup of an id that is not known to be gone hears one answer, and passes on what it says. -/
theorem order_told (l : Ledger σ) (market : Address) {v : View (Overheard σ)} (h : id ∉ v.absent) :
    ∃ e after, let heard := v.ledger.heard ++ [e]
      (e.Denies market id ∧
          order l.overheard market id v =
            (.ok .absent, ⟨v.absent.insert id, ⟨after, heard⟩⟩)) ∨
        (∃ o, o.id = id ∧ e.Shows market o ∧
          order l.overheard market id v = (.ok (.present o), ⟨v.absent, ⟨after, heard⟩⟩)) ∨
        ∃ cause, e.Fails market id cause ∧
          order l.overheard market id v =
            (.error (.queryFailed cause), ⟨v.absent, ⟨after, heard⟩⟩) := by
  rcases hcall : l.call market (Query.offer id).method (Query.offer id).args v.ledger.inner with
    ⟨answer, after⟩
  let e : Exchange := ⟨market, (Query.offer id).method, (Query.offer id).args, answer⟩
  have hasks : e.Asks market id := ⟨rfl, rfl, rfl⟩
  have hordered := order_of_not_mem h (Ledger.overheard_call hcall)
  refine ⟨e, after, ?_⟩
  rw [hordered]
  cases hread : answer >>= fun values => Lookup.ofSlot market id ⟨"offers", values⟩ with
  | error cause => exact .inr (.inr ⟨cause, ⟨hasks, bind_eq_error_iff.mp hread⟩, rfl⟩)
  | ok found =>
      obtain ⟨values, hvalues, hslot⟩ := bind_eq_ok_iff.mp hread
      cases found with
      | absent => exact .inl ⟨⟨hasks, values, hvalues, Lookup.ofSlot_eq_absent_iff.mp hslot⟩, rfl⟩
      | present o =>
          obtain ⟨hmarket, rfl, hin⟩ := Lookup.ofSlot_eq_present_iff.mp hslot
          exact .inr (.inl ⟨o, rfl, ⟨hasks, hmarket, values, hvalues, hin⟩, rfl⟩)

/-- A listing from `n` on asks for the ids that are not known to be gone, and knows those to be gone
from then on that were denied. -/
theorem ordersFrom_told (l : Ledger σ) (market : Address) {n count : Nat}
    (hsize : n + count ≤ UInt64.size) (found : List Order) (v : View (Overheard σ)) :
    ∃ asked result w,
      ordersFrom l.overheard market (.ofNat n) found count v =
        (result.map (found.reverse ++ ·), w) ∧
      w.ledger.heard = v.ledger.heard ++ asked ∧
      Listing market (unknownFrom v.absent n count) asked result ∧
      ∀ id, id ∈ w.absent ↔ id ∈ v.absent ∨ ∃ e ∈ asked, e.Denies market id := by
  induction count generalizing n found v with
  | zero =>
      have hnothing : found.reverse = found.reverse ++ [] := (List.append_nil _).symm
      exact ⟨[], .ok [], v, congrArg (fun orders => (Except.ok orders, v)) hnothing,
        (List.append_nil _).symm, .done, fun id => (or_iff_left nofun).symm⟩
  | succ count ih =>
      have hnext : UInt64.ofNat n + 1 = UInt64.ofNat (n + 1) := (UInt64.ofNat_add n 1).symm
      have hrest : n + 1 + count ≤ UInt64.size := by omega
      rw [ordersFrom_succ, hnext]
      by_cases hmem : UInt64.ofNat n ∈ v.absent
      · rw [order_of_mem hmem, unknownFrom_of_mem hmem]
        exact ih hrest found v
      · obtain ⟨e, after, ⟨hdenies, hlooked⟩ | ⟨o, hid, hshows, hlooked⟩ |
          ⟨cause, hfails, hlooked⟩⟩ := order_told l market hmem
        · obtain ⟨asked, result, w, heq, hheard, hlisting, habsent⟩ := ih hrest found
            ⟨v.absent.insert (.ofNat n), ⟨after, v.ledger.heard ++ [e]⟩⟩
          rw [hlooked, unknownFrom_of_not_mem hmem]
          rw [unknownFrom_insert hrest] at hlisting
          refine ⟨e :: asked, result, w, heq, ?_, .denied hdenies hlisting, fun id => ?_⟩
          · rw [hheard, List.append_assoc]
            rfl
          · rw [habsent, List.exists_mem_cons_iff, ← or_assoc]
            refine or_congr_left (Std.ExtTreeSet.mem_insert.trans ?_)
            rw [Std.LawfulEqOrd.compare_eq_iff_eq, or_comm]
            refine or_congr_right ⟨?_, fun h => hdenies.1.unique h.1⟩
            rintro rfl
            exact hdenies
        · obtain ⟨asked, result, w, heq, hheard, hlisting, habsent⟩ := ih hrest (o :: found)
            ⟨v.absent, ⟨after, v.ledger.heard ++ [e]⟩⟩
          rw [hlooked, unknownFrom_of_not_mem hmem, ← hid]
          refine ⟨e :: asked, result.map (o :: ·), w, ?_, ?_, .shown hshows hlisting, fun id => ?_⟩
          · refine heq.trans ?_
            cases result with
            | error failure => rfl
            | ok orders =>
                simp only [Except.map, List.reverse_cons, List.append_assoc]
                rfl
          · rw [hheard, List.append_assoc]
            rfl
          · rw [habsent, List.exists_mem_cons_iff]
            exact or_congr_right (or_iff_right fun hdenies => hdenies.not_shows hshows).symm
        · rw [hlooked, unknownFrom_of_not_mem hmem]
          refine ⟨[e], .error (.queryFailed cause), _, rfl, rfl, .failed _ hfails, fun id => ?_⟩
          refine (or_iff_left ?_).symm
          rintro ⟨e', he', hdenies⟩
          obtain rfl := List.mem_singleton.mp he'
          exact hfails.not_isLegible ⟨id, .inl hdenies⟩

theorem lastOrderId_told (l : Ledger σ) (market : Address) (v : View (Overheard σ)) :
    ∃ first after, first.AsksLast market ∧
      let w : View (Overheard σ) := ⟨v.absent, ⟨after, v.ledger.heard ++ [first]⟩⟩
      (∃ last, first.Counts last ∧ lastOrderId l.overheard market v = (.ok last, w)) ∨
        ∃ cause, first.FailsLast cause ∧
          lastOrderId l.overheard market v = (.error (.queryFailed cause), w) := by
  rcases hcall : l.call market Query.lastOfferId.method Query.lastOfferId.args v.ledger.inner with
    ⟨answer, after⟩
  refine ⟨⟨market, Query.lastOfferId.method, Query.lastOfferId.args, answer⟩, after,
    ⟨rfl, rfl, rfl⟩, ?_⟩
  rw [lastOrderId, Step.bind_apply, ask_apply (Ledger.overheard_call hcall)]
  cases answer with
  | error cause => exact .inr ⟨cause, .inl rfl, rfl⟩
  | ok values =>
      simp only [Except.map, Except.mapError, Work.read, Work.of]
      cases hread : Outputs.number ⟨Query.lastOfferId.method, values⟩ 0 with
      | error cause => exact .inr ⟨cause, .inr ⟨values, rfl, hread⟩, rfl⟩
      | ok last => exact .inl ⟨last, ⟨values, rfl, Outputs.number_eq_ok_iff.mp hread⟩, rfl⟩

end

/-- An order that is shown whenever it is asked for is in the list. -/
theorem Listing.exists_of_unknown {market : Address} {ids : List OrderId} {asked : List Exchange}
    {listed : List Order} (h : Listing market ids asked (.ok listed)) {id : OrderId}
    (hid : id ∈ ids) (hnot : ∀ e ∈ asked, ¬ e.Denies market id) : ∃ o ∈ listed, o.id = id := by
  obtain ⟨k, hk, rfl⟩ := List.getElem_of_mem hid
  have hasks := h.asks_of_ok rfl
  have hlt : k < asked.length := hasks.length_eq ▸ hk
  have hmem := List.getElem_mem hlt
  have hask : asked[k].Asks market ids[k] := hasks.get hk hlt
  obtain ⟨other, hdenies | ⟨o, rfl, hshows⟩⟩ := h.legible_of_ok rfl _ hmem
  · obtain rfl := hask.unique hdenies.1
    exact absurd hdenies (hnot _ hmem)
  · exact ⟨o, (h.mem_of_ok rfl o).mpr ⟨_, hmem, hshows⟩, hshows.id_eq hask⟩

/-- A listing asks for the last id and for every id that is not known to be gone, up to the first
answer that is none, and gives the orders that the answers show. -/
theorem orders_as_told {σ : Type} (l : Ledger σ) (market : Address) (v : View (Overheard σ)) :
    ∃ first asked result w,
      Client.orders l.overheard market v = (result, w) ∧
      Client.orders l market v.unheard = (result, w.unheard) ∧
      w.ledger.heard = v.ledger.heard ++ first :: asked ∧
      first.AsksLast market ∧
      (∀ last, first.Counts last → ∃ queried rest,
        unknownFrom v.absent 1 last.toNat = queried ++ rest ∧
        List.Forall₂ (fun id e => e.Asks market id) queried asked) ∧
      ((∃ listed, result = .ok listed) ↔
        (∃ last, first.Counts last) ∧ ∀ e ∈ asked, e.IsLegible market) ∧
      (∀ listed, result = .ok listed →
        listed.Pairwise (·.id < ·.id) ∧
        (∀ o, o ∈ listed ↔ ∃ e ∈ asked, e.Shows market o) ∧
        ∃ last, first.Counts last ∧
          List.Forall₂ (fun id e => e.Asks market id) (unknownFrom v.absent 1 last.toNat) asked ∧
          ∀ id, 1 ≤ id → id ≤ last → id ∉ v.absent → (∀ e ∈ asked, ¬ e.Denies market id) →
            ∃ o ∈ listed, o.id = id) ∧
      (∀ failure, result = .error failure → ∃ cause, failure = .queryFailed cause ∧
        (first.FailsLast cause ∧ asked = [] ∨
          ∃ told e id, asked = told ++ [e] ∧ (∀ e' ∈ told, e'.IsLegible market) ∧
            e.Fails market id cause)) ∧
      ∀ id, id ∈ w.absent ↔ id ∈ v.absent ∨ ∃ e ∈ asked, e.Denies market id := by
  have halike := Work.Alike.orders l market v
  obtain ⟨first, after, hfirst, ⟨last, hcounts, hlast⟩ | ⟨cause, hfails, hlast⟩⟩ :=
    lastOrderId_told l market v
  · have hlt := last.toNat_lt
    have hsize : 1 + last.toNat ≤ UInt64.size := by
      simp only [UInt64.size]
      omega
    obtain ⟨asked, result, w, heq, hheard, hlisting, habsent⟩ :=
      ordersFrom_told l market hsize [] ⟨v.absent, ⟨after, v.ledger.heard ++ [first]⟩⟩
    have horders : Client.orders l.overheard market v = (result, w) := by
      rw [Client.orders, Step.bind_apply, hlast]
      refine heq.trans ?_
      cases result <;> rfl
    obtain ⟨queried, rest, hids, hasks⟩ := hlisting.asks
    refine ⟨first, asked, result, w, horders, by rw [halike, horders], ?_, hfirst,
      fun other hother => ?_, ?_, fun listed hok => ?_, fun failure herror => ?_, habsent⟩
    · rw [hheard, List.append_assoc]
      rfl
    · obtain rfl := hother.unique hcounts
      exact ⟨queried, rest, hids, hasks⟩
    · exact hlisting.ok_iff.trans (and_iff_right ⟨last, hcounts⟩).symm
    · subst hok
      have hrising := (unknownFrom_pairwise hsize).sublist (hlisting.sublist_of_ok rfl)
      refine ⟨List.pairwise_map.mp hrising, hlisting.mem_of_ok rfl, last, hcounts,
        hlisting.asks_of_ok rfl, fun id hone hle hid hnot => ?_⟩
      have hlow := UInt64.le_iff_toNat_le.mp hone
      have hhigh := UInt64.le_iff_toNat_le.mp hle
      exact hlisting.exists_of_unknown
        ((mem_unknownFrom hsize).mpr ⟨hlow, by omega, hid⟩) hnot
    · obtain ⟨told, e, id, cause, hasked, hlegible, hfails, hfailure⟩ :=
        hlisting.cause_of_error herror
      exact ⟨cause, hfailure, .inr ⟨told, e, id, hasked, hlegible, hfails⟩⟩
  · have horders : Client.orders l.overheard market v =
        (.error (.queryFailed cause), ⟨v.absent, ⟨after, v.ledger.heard ++ [first]⟩⟩) := by
      rw [Client.orders, Step.bind_apply, hlast]
    refine ⟨first, [], _, _, horders, by rw [halike, horders], rfl, hfirst,
      fun last hcounts => absurd hcounts (hfails.not_counts last), iff_of_false ?_ ?_,
      fun listed hok => ?_,
      fun failure herror => ⟨cause, (Except.error.inj herror).symm, .inl ⟨hfails, rfl⟩⟩,
      fun id => (or_iff_left ?_).symm⟩
    · rintro ⟨listed, hok⟩
      cases hok
    · rintro ⟨⟨last, hcounts⟩, _⟩
      exact hfails.not_counts last hcounts
    · cases hok
    · rintro ⟨e, he, _⟩
      cases he

end Barter
