import Barter.Client.Orders
import Barter.Sandbox.Execution

namespace Barter

theorem Step.bind_apply {σ ε α β : Type} (x : Step σ ε α) (f : α → Step σ ε β) (s : σ) :
    (x >>= f) s =
      match x s with
      | (.ok a, after) => f a after
      | (.error e, after) => (.error e, after) := by
  simp only [bind, ExceptT.bind, ExceptT.mk, ExceptT.bindCont, StateT.bind]
  cases x s with
  | mk result after => cases result <;> rfl

def Offer.order (offer : Offer) (market : Address) (id : OrderId) : Order :=
  { offer.toTerms with market, id, maker := offer.owner, timestamp := offer.timestamp }

theorem Lookup.ofSlot_some (market : Address) (id : OrderId) (offer : Offer) :
    Lookup.ofSlot market id ⟨"offers", Sandbox.slot (some offer)⟩ =
      if offer.buyAmount.isZero then .error (.decode (.worthless id))
      else .ok (.present (offer.order market id)) := by
  have hread : Lookup.ofSlot market id ⟨"offers", Sandbox.slot (some offer)⟩ =
      .present <$> Order.ofSlot market id ⟨"offers", Sandbox.slot (some offer)⟩ := rfl
  have hamount : Outputs.amount ⟨"offers", Sandbox.slot (some offer)⟩ 2 = .ok offer.buyAmount := rfl
  have htime : Outputs.number ⟨"offers", Sandbox.slot (some offer)⟩ 6 = .ok offer.timestamp :=
    Outputs.number_of_get _ 6 _ rfl
  rw [hread, Order.ofSlot, htime, hamount]
  by_cases hzero : offer.buyAmount.isZero = true
  · simp only [bind, Except.bind, if_pos hzero]
    rfl
  · simp only [bind, Except.bind, if_neg hzero]
    rfl

theorem Outputs.uint_eq_ok_iff {o : Outputs} {index : Nat} {w : Word} :
    o.uint index = .ok w ↔ o.values[index]? = some (.uint w) := by
  rw [uint, get]
  cases o.values[index]? with
  | none => simp [bind, Except.bind]
  | some v => cases v <;> simp [bind, Except.bind]

theorem Outputs.address_eq_ok_iff {o : Outputs} {index : Nat} {a : Address} :
    o.address index = .ok a ↔ o.values[index]? = some (.address a) := by
  rw [address, get]
  cases o.values[index]? with
  | none => simp [bind, Except.bind]
  | some v => cases v <;> simp [bind, Except.bind]

theorem Outputs.amount_eq_ok_iff {o : Outputs} {index : Nat} {a : Wad} :
    o.amount index = .ok a ↔ o.values[index]? = some (.amount a) := by
  rw [amount, bind_eq_ok_iff]
  simp only [uint_eq_ok_iff, pure, Except.pure, Except.ok.injEq]
  exact ⟨fun ⟨w, hw, ha⟩ => ha ▸ hw, fun h => ⟨a.raw, h, rfl⟩⟩

theorem Outputs.number_eq_ok_iff {o : Outputs} {index : Nat} {n : UInt64} :
    o.number index = .ok n ↔ o.values[index]? = some (.number n) := by
  rw [number, bind_eq_ok_iff]
  simp only [uint_eq_ok_iff]
  constructor
  · rintro ⟨w, hw, h⟩
    split at h
    next found hfound =>
      obtain rfl := Except.ok.inj h
      rw [hw, Word.toUInt64?_eq_some_iff.mp hfound]
      rfl
    · cases h
  · intro h
    exact ⟨.ofUInt64 n, h, by rw [Word.toUInt64?_ofUInt64]⟩

theorem Outputs.bool_eq_ok_iff {o : Outputs} {index : Nat} {b : Bool} :
    o.bool index = .ok b ↔ o.values[index]? = some (.bool b) := by
  rw [bool, get]
  cases o.values[index]? with
  | none => exact iff_of_false nofun nofun
  | some v =>
      cases v with
      | bool found => simp [bind, Except.bind]
      | address | uint | bytes32 => exact iff_of_false nofun nofun

theorem Lookup.ofSlot_eq_absent_iff {market : Address} {id : OrderId} {o : Outputs} :
    Lookup.ofSlot market id o = .ok .absent ↔ o.values[5]? = some (.bool false) := by
  rw [← Outputs.bool_eq_ok_iff, Lookup.ofSlot, bind_eq_ok_iff]
  constructor
  · rintro ⟨active, hactive, h⟩
    cases active with
    | false => exact hactive
    | true =>
        cases hread : Order.ofSlot market id o with
        | error e =>
            rw [hread] at h
            cases h
        | ok read =>
            rw [hread] at h
            cases h
  · intro h
    exact ⟨false, h, rfl⟩

theorem Order.id_of_ofSlot {market : Address} {id : OrderId} {o : Outputs} {found : Order}
    (h : Order.ofSlot market id o = .ok found) : found.id = id := by
  unfold Order.ofSlot at h
  obtain ⟨buyAmount, _, h⟩ := bind_eq_ok_iff.mp h
  split at h
  · cases h
  · obtain ⟨maker, _, h⟩ := bind_eq_ok_iff.mp h
    obtain ⟨payToken, _, h⟩ := bind_eq_ok_iff.mp h
    obtain ⟨payAmount, _, h⟩ := bind_eq_ok_iff.mp h
    obtain ⟨buyToken, _, h⟩ := bind_eq_ok_iff.mp h
    obtain ⟨timestamp, _, h⟩ := bind_eq_ok_iff.mp h
    cases h
    rfl

theorem Lookup.id_of_ofSlot {market : Address} {id : OrderId} {o : Outputs} {found : Order}
    (h : Lookup.ofSlot market id o = .ok (.present found)) : found.id = id := by
  unfold Lookup.ofSlot at h
  obtain ⟨active, _, h⟩ := bind_eq_ok_iff.mp h
  cases active with
  | false => cases h
  | true =>
      cases hread : Order.ofSlot market id o with
      | error e =>
          rw [hread] at h
          cases h
      | ok read =>
          rw [hread] at h
          cases h
          exact Order.id_of_ofSlot hread

namespace Client

variable {σ : Type} {l : Ledger σ} {market : Address} {id : OrderId} {v : View σ} {after : σ}

theorem ask_apply {q : Query} {answer : Except Fault (List Value)}
    (hcall : l.call market q.method q.args v.ledger = (answer, after)) :
    ask l market q v =
      ((answer.map (Outputs.mk q.method)).mapError .queryFailed, ⟨v.absent, after⟩) := by
  rw [ask, Step.bind_apply, Work.ask, hcall]
  cases answer with
  | error e => rfl
  | ok values => rfl

theorem ask_eq {q : Query} {values : List Value}
    (hcall : l.call market q.method q.args v.ledger = (.ok values, after)) :
    ask l market q v = (.ok ⟨q.method, values⟩, ⟨v.absent, after⟩) :=
  ask_apply hcall

theorem order_of_mem (h : id ∈ v.absent) : order l market id v = (.ok .absent, v) := by
  have hseen : Work.isAbsent id v = (.ok true, v) := by
    rw [Work.isAbsent, Std.ExtTreeSet.contains_iff_mem.mpr h]
  rw [order, Step.bind_apply, hseen]
  rfl

theorem order_of_not_mem (h : id ∉ v.absent) {answer : Except Fault (List Value)}
    (hcall : l.call market (Query.offer id).method (Query.offer id).args v.ledger =
      (answer, after)) :
    order l market id v =
      match answer >>= fun values => Lookup.ofSlot market id ⟨"offers", values⟩ with
      | .ok (.present found) => (.ok (.present found), ⟨v.absent, after⟩)
      | .ok .absent => (.ok .absent, ⟨v.absent.insert id, after⟩)
      | .error e => (.error (.queryFailed e), ⟨v.absent, after⟩) := by
  have hseen : Work.isAbsent id v = (.ok false, v) := by
    rw [Work.isAbsent, Bool.eq_false_iff.mpr (mt Std.ExtTreeSet.contains_iff_mem.mp h)]
  rw [order, Step.bind_apply, hseen]
  simp only [Bool.false_eq_true, if_false]
  cases answer with
  | error e =>
      rw [Step.bind_apply, ask_apply hcall]
      rfl
  | ok values =>
      have hread : Work.read (Lookup.ofSlot market id ⟨"offers", values⟩)
          (⟨v.absent, after⟩ : View σ) =
            ((Lookup.ofSlot market id ⟨"offers", values⟩).mapError .queryFailed,
              ⟨v.absent, after⟩) := rfl
      rw [Step.bind_apply, ask_eq hcall]
      simp only [Query.method, bind, Except.bind]
      refine (Step.bind_apply _ _ _).trans ?_
      rw [hread]
      generalize Lookup.ofSlot market id ⟨"offers", values⟩ = read
      cases read with
      | error e => rfl
      | ok found =>
          cases found with
          | present o => rfl
          | absent => rfl

theorem order_of_empty (h : id ∉ v.absent)
    (hcall : l.call market (Query.offer id).method (Query.offer id).args v.ledger =
      (.ok (Sandbox.slot none), after)) :
    order l market id v = (.ok .absent, ⟨v.absent.insert id, after⟩) :=
  order_of_not_mem h hcall

theorem order_of_live (h : id ∉ v.absent) {offer : Offer}
    (hcall : l.call market (Query.offer id).method (Query.offer id).args v.ledger =
      (.ok (Sandbox.slot (some offer)), after)) :
    order l market id v =
      (if offer.buyAmount.isZero then .error (.queryFailed (.decode (.worthless id)))
        else .ok (.present (offer.order market id)), ⟨v.absent, after⟩) := by
  rw [order_of_not_mem h hcall]
  simp only [bind, Except.bind]
  rw [Lookup.ofSlot_some]
  by_cases hzero : offer.buyAmount.isZero = true
  · rw [if_pos hzero, if_pos hzero]
  · rw [if_neg hzero, if_neg hzero]

/-- How a lookup can end, on whatever ledger, and what it does to the cache. -/
inductive Looks (id : OrderId) (v w : View σ) : Except Failure Lookup → Prop
  | known (h : id ∈ v.absent) (hw : w = v) : Looks id v w (.ok .absent)
  | present (o : Order) (h : id ∉ v.absent) (hid : o.id = id) (hw : w.absent = v.absent) :
      Looks id v w (.ok (.present o))
  | gone (h : id ∉ v.absent) (hw : w.absent = v.absent.insert id) : Looks id v w (.ok .absent)
  | failed (e : Failure) (h : id ∉ v.absent) (hw : w.absent = v.absent) : Looks id v w (.error e)

theorem order_looks (l : Ledger σ) (market : Address) (id : OrderId) (v : View σ) :
    Looks id v (order l market id v).2 (order l market id v).1 := by
  by_cases h : id ∈ v.absent
  · rw [order_of_mem h]
    exact .known h rfl
  · rcases hcall : l.call market (Query.offer id).method (Query.offer id).args v.ledger with
      ⟨answer, after⟩
    rw [order_of_not_mem h hcall]
    cases hread : answer >>= fun values => Lookup.ofSlot market id ⟨"offers", values⟩ with
    | error e => exact .failed _ h rfl
    | ok found =>
        cases found with
        | absent => exact .gone h rfl
        | present o =>
            obtain ⟨values, _, hslot⟩ := bind_eq_ok_iff.mp hread
            exact .present o h (Lookup.id_of_ofSlot hslot) rfl

theorem ordersFrom_succ (found : List Order) (count : Nat) :
    ordersFrom l market id found (count + 1) v =
      match order l market id v with
      | (.ok (.present o), w) => ordersFrom l market (id + 1) (o :: found) count w
      | (.ok .absent, w) => ordersFrom l market (id + 1) found count w
      | (.error e, w) => (.error e, w) := by
  rw [ordersFrom, Step.bind_apply]
  generalize order l market id v = result
  obtain ⟨answer, w⟩ := result
  cases answer with
  | error e => rfl
  | ok found? =>
      cases found? with
      | present o => rfl
      | absent => rfl

theorem lastOrderId_eq {last : OrderId}
    (hcall : l.call market Query.lastOfferId.method Query.lastOfferId.args v.ledger =
      (.ok [.number last], after)) :
    lastOrderId l market v = (.ok last, ⟨v.absent, after⟩) := by
  rw [lastOrderId, Step.bind_apply, ask_eq hcall]
  simp only [Work.read, Work.of]
  rw [Outputs.number_of_get _ 0 last rfl]
  rfl

theorem lastOrderId_snd {answer : Except Fault (List Value)}
    (hcall : l.call market Query.lastOfferId.method Query.lastOfferId.args v.ledger =
      (answer, after)) : (lastOrderId l market v).2 = ⟨v.absent, after⟩ := by
  rw [lastOrderId, Step.bind_apply, ask_apply hcall]
  cases answer with
  | error e => rfl
  | ok values => rfl

theorem orders_eq {last : OrderId}
    (hcall : l.call market Query.lastOfferId.method Query.lastOfferId.args v.ledger =
      (.ok [.number last], after)) :
    orders l market v = ordersFrom l market 1 [] last.toNat ⟨v.absent, after⟩ := by
  rw [orders, Step.bind_apply, lastOrderId_eq hcall]

theorem Looks.grows {w : View σ} {answer : Except Failure Lookup} (h : Looks id v w answer) :
    ∀ j ∈ v.absent, j ∈ w.absent := by
  intro j hj
  cases h with
  | known _ hw => rw [hw]; exact hj
  | present _ _ _ hw | failed _ _ hw => rw [hw]; exact hj
  | gone _ hw => rw [hw]; exact Std.ExtTreeSet.mem_insert.mpr (.inr hj)

/-- The orders that a listing has met from the id `n` on: each was asked for, and every id without
one is in the cache. -/
structure Lists (n count : Nat) (v w : View σ) (new : List Order) : Prop where
  grows : ∀ j ∈ v.absent, j ∈ w.absent
  fresh : ∀ o ∈ new, o.id ∉ v.absent
  covers : ∀ j : OrderId, n ≤ j.toNat → j.toNat < n + count →
    (∃ o ∈ new, o.id = j) ∨ j ∈ w.absent

section

variable {n count : Nat} {mid w : View σ} {new : List Order}

theorem Lists.covers_succ (h : Lists (n + 1) count mid w new) (hn : n < UInt64.size) (j : OrderId)
    (hlow : n ≤ j.toNat) (hhigh : j.toNat < n + (count + 1)) :
    j = UInt64.ofNat n ∨ (∃ o ∈ new, o.id = j) ∨ j ∈ w.absent := by
  by_cases hj : j.toNat = n
  · exact .inl (UInt64.toNat_inj.mp (hj.trans (UInt64.toNat_ofNat_of_lt' hn).symm))
  · exact .inr (h.covers j (by omega) (by omega))

theorem Lists.skip (h : Lists (n + 1) count mid w new) (hn : n < UInt64.size)
    (hgrows : ∀ j ∈ v.absent, j ∈ mid.absent) (hmem : UInt64.ofNat n ∈ mid.absent) :
    Lists n (count + 1) v w new := by
  refine ⟨fun j hj => h.grows j (hgrows j hj), fun o ho hmem => h.fresh o ho (hgrows _ hmem), ?_⟩
  intro j hlow hhigh
  rcases h.covers_succ hn j hlow hhigh with rfl | hj
  · exact .inr (h.grows _ hmem)
  · exact hj

theorem Lists.cons (h : Lists (n + 1) count mid w new) (hn : n < UInt64.size)
    (hgrows : ∀ j ∈ v.absent, j ∈ mid.absent) {o : Order} (ho : o.id = UInt64.ofNat n)
    (hfresh : UInt64.ofNat n ∉ v.absent) : Lists n (count + 1) v w (o :: new) := by
  refine ⟨fun j hj => h.grows j (hgrows j hj), ?_, ?_⟩
  · intro o' ho'
    rcases List.mem_cons.mp ho' with rfl | ho'
    · rw [ho]
      exact hfresh
    · exact fun hmem => h.fresh o' ho' (hgrows _ hmem)
  · intro j hlow hhigh
    rcases h.covers_succ hn j hlow hhigh with rfl | ⟨o', ho', hj⟩ | hj
    · exact .inl ⟨o, List.mem_cons_self, ho⟩
    · exact .inl ⟨o', List.mem_cons_of_mem o ho', hj⟩
    · exact .inr hj

theorem ordersFrom_lists (hn : n + count ≤ UInt64.size) {found result : List Order}
    (h : ordersFrom l market (UInt64.ofNat n) found count v = (.ok result, w)) :
    ∃ new, result = found.reverse ++ new ∧ Lists n count v w new := by
  induction count generalizing n found v with
  | zero =>
      cases h
      refine ⟨[], (List.append_nil _).symm, fun _ hj => hj, nofun, fun j hlow hhigh => ?_⟩
      omega
  | succ count ih =>
      have hlt : n < UInt64.size := by omega
      have hnext : UInt64.ofNat n + 1 = UInt64.ofNat (n + 1) := (UInt64.ofNat_add n 1).symm
      rw [ordersFrom_succ, hnext] at h
      have hlooks := order_looks l market (UInt64.ofNat n) v
      generalize order l market (UInt64.ofNat n) v = looked at h hlooks
      obtain ⟨answer, mid⟩ := looked
      have hgrows : ∀ j ∈ v.absent, j ∈ mid.absent := hlooks.grows
      cases hlooks with
      | failed e => cases h
      | known hmem hmid =>
          obtain rfl : mid = v := hmid
          obtain ⟨new, hresult, hlists⟩ := ih (by omega) h
          exact ⟨new, hresult, hlists.skip hlt hgrows hmem⟩
      | gone _ hmid =>
          have hmem : UInt64.ofNat n ∈ mid.absent := by
            rw [show mid.absent = _ from hmid]
            exact Std.ExtTreeSet.mem_insert_self
          obtain ⟨new, hresult, hlists⟩ := ih (by omega) h
          exact ⟨new, hresult, hlists.skip hlt hgrows hmem⟩
      | present o hfresh ho =>
          obtain ⟨new, hresult, hlists⟩ := ih (by omega) h
          refine ⟨o :: new, ?_, hlists.cons hlt hgrows ho hfresh⟩
          rw [hresult, List.reverse_cons, List.append_assoc]
          rfl

end

end Client

end Barter
