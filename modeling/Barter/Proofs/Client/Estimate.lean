import Barter.Client.Trading
import Barter.Proofs.Client.Shared
import Barter.Proofs.Hint
import Barter.Proofs.Sandbox.Creation

namespace Barter

open Client

theorem Terms.price_of_div? {t : Terms} {price : Wad} (hpay : 0 < t.payAmount.raw.toNat)
    (hbuy : 0 < t.buyAmount.raw.toNat) (h : t.payAmount.div? t.buyAmount = some price) :
    t.price = .ok price := by
  rw [Terms.price, Terms.check_eq_ok_iff.mpr ⟨hpay, hbuy⟩, h]
  rfl

theorem Client.position_of_orders {σ : Type} {l : Ledger σ} {market : Address} {terms : Terms}
    {v w : View σ} {active : List Order} {price : Wad} (hprice : terms.price = .ok price)
    (horders : orders l market v = (.ok active, w)) :
    position l market terms v = (.ok (Hint.position active terms.pair price), w) := by
  rw [position, Step.bind_apply, hprice]
  simp only [Work.of]
  rw [Step.bind_apply, horders]
  rfl

namespace Shared

/-- The client has seen the order with one of its first `n` requests, as it was then. -/
def Seen (s : Sandbox) (coming : List (List Move)) (n : Nat) (o : Order) : Prop :=
  ∃ k < n, ∃ offer, (s.run (coming.take (k + 1)).flatten).offer? o.id = some offer ∧
    o = offer.order s.market o.id

variable {s : Sandbox} {coming : List (List Move)} {n : Nat}

theorem Seen.mono {m : Nat} {o : Order} (h : Seen s coming n o) (hle : n ≤ m) :
    Seen s coming m o := by
  obtain ⟨k, hk, hoffer⟩ := h
  exact ⟨k, Nat.lt_of_lt_of_le hk hle, hoffer⟩

section

variable (hwants : ∀ id offer, s.offer? id = some offer → 0 < offer.buyAmount.raw.toNat)

include hwants

theorem order_after (coming : List (List Move)) (absent : Std.ExtTreeSet OrderId) (n : Nat)
    (id : OrderId) :
    ∃ found absent' m,
      Client.order ledger s.market id ⟨absent, after s coming n⟩ =
        (.ok found, ⟨absent', after s coming m⟩) ∧
      n ≤ m ∧ ∀ o, found = .present o → o.id = id ∧ Seen s coming m o := by
  by_cases hmem : id ∈ absent
  · exact ⟨.absent, absent, n, order_of_mem hmem, Nat.le_refl n, nofun⟩
  · have hcall : ledger.call s.market (Query.offer id).method (Query.offer id).args
        (after s coming n) = _ := call_after fun _ => rfl
    rw [Sandbox.answer] at hcall
    cases hoffer : (s.run (coming.take (n + 1)).flatten).offer? id with
    | none =>
        rw [hoffer] at hcall
        exact ⟨.absent, absent.insert id, n + 1, order_of_empty hmem hcall, Nat.le_succ n, nofun⟩
    | some offer =>
        rw [hoffer] at hcall
        -- nothing that is done to an order leaves it without a price, so the answer can be read
        have hlife := s.run_life (coming.take (n + 1)).flatten id
        rw [hoffer] at hlife
        have hbuy := Wad.isZero_eq_false_iff.mpr (hlife.buy_pos (hwants id))
        have hlooked := order_of_live (v := ⟨absent, after s coming n⟩) hmem hcall
        rw [hbuy] at hlooked
        refine ⟨.present (offer.order s.market id), absent, n + 1, hlooked, Nat.le_succ n, ?_⟩
        rintro o ⟨⟩
        exact ⟨rfl, n, Nat.lt_succ_self n, offer, hoffer, rfl⟩

theorem ordersFrom_after {last : OrderId} {count : Nat}
    (absent : Std.ExtTreeSet OrderId) (n first : Nat) (found : List Order)
    (hcount : first + count ≤ last.toNat + 1)
    (hfound : ∀ o ∈ found, o.id ≤ last ∧ Seen s coming n o) :
    ∃ result absent' m,
      Client.ordersFrom ledger s.market (.ofNat first) found count ⟨absent, after s coming n⟩ =
        (.ok result, ⟨absent', after s coming m⟩) ∧
      n ≤ m ∧ ∀ o ∈ result, o.id ≤ last ∧ Seen s coming m o := by
  induction count generalizing absent n first found with
  | zero =>
      exact ⟨found.reverse, absent, n, rfl, Nat.le_refl n, fun o ho => hfound o (List.mem_reverse.mp ho)⟩
  | succ count ih =>
      have hlt := last.toNat_lt
      have hfirst : UInt64.ofNat first ≤ last := by
        rw [UInt64.le_iff_toNat_le, UInt64.toNat_ofNat_of_lt' (by simp only [UInt64.size]; omega)]
        omega
      have hnext : UInt64.ofNat first + 1 = UInt64.ofNat (first + 1) :=
        (UInt64.ofNat_add first 1).symm
      obtain ⟨answer, absent', m, hlooked, hm, hseen⟩ :=
        order_after hwants coming absent n (UInt64.ofNat first)
      have hold : ∀ o ∈ found, o.id ≤ last ∧ Seen s coming m o := fun o ho =>
        ⟨(hfound o ho).1, (hfound o ho).2.mono hm⟩
      rw [ordersFrom_succ, hlooked, hnext]
      cases answer with
      | absent =>
          obtain ⟨result, rest, k, hresult, hk, hall⟩ := ih absent' m (first + 1) found (by omega) hold
          exact ⟨result, rest, k, hresult, Nat.le_trans hm hk, hall⟩
      | present o =>
          obtain ⟨hid, ho⟩ := hseen o rfl
          obtain ⟨result, rest, k, hresult, hk, hall⟩ := ih absent' m (first + 1) (o :: found) (by omega)
            (List.forall_mem_cons.mpr ⟨⟨hid ▸ hfirst, ho⟩, hold⟩)
          exact ⟨result, rest, k, hresult, Nat.le_trans hm hk, hall⟩

theorem orders_after (coming : List (List Move)) (absent : Std.ExtTreeSet OrderId) :
    ∃ result absent' n,
      Client.orders ledger s.market ⟨absent, ⟨s, coming⟩⟩ =
        (.ok result, ⟨absent', after s coming n⟩) ∧
      ∀ o ∈ result, o.id ≤ (s.run (coming.take 1).flatten).lastId ∧ Seen s coming n o := by
  have hcall : ledger.call s.market Query.lastOfferId.method Query.lastOfferId.args
      (after s coming 0) = _ := call_after fun _ => rfl
  rw [Sandbox.answer] at hcall
  obtain ⟨result, absent', n, hresult, _, hall⟩ := ordersFrom_after hwants absent 1 1 []
    (Nat.le_of_eq (Nat.add_comm 1 _)) (List.forall_mem_nil _)
  exact ⟨result, absent', n, (orders_eq hcall).trans hresult, hall⟩

/-- However the market is changed between the requests of a client, its estimate of a position comes
to an end, and the position is none at all or an order that it was shown. -/
theorem position_after (coming : List (List Move)) (absent : Std.ExtTreeSet OrderId)
    {terms : Terms} {price : Wad} (hprice : terms.price = .ok price) :
    ∃ position absent' n,
      Client.position ledger s.market terms ⟨absent, ⟨s, coming⟩⟩ =
        (.ok position, ⟨absent', after s coming n⟩) ∧
      position ≤ (s.run (coming.take 1).flatten).lastId ∧
      (position = 0 ∨ ∃ o, Seen s coming n o ∧ position = o.id ∧ o.pair = terms.pair ∧
        price ≤ o.sellToBuyPrice) := by
  obtain ⟨result, absent', n, hresult, hall⟩ := orders_after hwants coming absent
  refine ⟨_, absent', n, Client.position_of_orders hprice hresult, ?_⟩
  rcases Hint.position_cases result terms.pair price with ⟨hzero, _⟩ | ⟨o, ho, hid⟩
  · rw [hzero]
    exact ⟨UInt64.zero_le, .inl rfl⟩
  · obtain ⟨hlast, hseen⟩ := hall o ho.mem
    exact ⟨hid ▸ hlast, .inr ⟨o, hseen, hid, ho.rival.pair_eq, ho.rival.price_le⟩⟩

end

end Shared

namespace Client

theorem submit_fst {σ : Type} (l : Ledger σ) (intent : Intent) (v : View σ) :
    (submit l intent v).1 = (l.submit intent v.ledger).1.mapError .ofStop :=
  rfl

theorem make_eq {σ : Type} {l : Ledger σ} {market : Address} {terms : Terms} {v w : View σ}
    {estimate : OrderId} (hcheck : terms.check = .ok ())
    (hestimate : position l market terms v = (.ok estimate, w)) :
    make l market .matching terms v =
      submit l ((Command.offer terms estimate).intent market) w := by
  have hmake : make l market .matching terms = makeAt l market terms none := rfl
  rw [hmake, makeAt, Step.bind_apply, hcheck]
  simp only [Work.of]
  rw [Step.bind_apply, hestimate]
  simp only [send]
  rw [Step.bind_apply, Command.checkedIntent_offer hcheck]
  rfl

end Client

/-- Whatever others do between the requests of a client, the position of its offer is zero or an
order that was there when it was asked for, which the market knows as long as the ids do not run
out. -/
theorem estimate_never_refused (s : Sandbox) (hkind : s.kind = .matching)
    (hwants : ∀ id offer, s.offer? id = some offer → 0 < offer.buyAmount.raw.toNat)
    (absent : Std.ExtTreeSet OrderId) (coming : List (List Move)) (terms : Terms)
    (hpay : 0 < terms.payAmount.raw.toNat) (hbuy : 0 < terms.buyAmount.raw.toNat) (price : Wad)
    (hprice : terms.payAmount.div? terms.buyAmount = some price) :
    let v : View Shared := ⟨absent, ⟨s, coming⟩⟩
    let made := Client.make Shared.ledger s.market .matching terms v
    ∃ position absent' n,
      let w : View Shared := ⟨absent', Shared.after s coming n⟩
      Client.position Shared.ledger s.market terms v = (.ok position, w) ∧
      made = Client.submit Shared.ledger ((Command.offer terms position).intent s.market) w ∧
      (position = 0 ∨ ∃ k < n, ∃ offer,
        (s.run (coming.take (k + 1)).flatten).offer? position = some offer ∧
        offer.pair = terms.pair ∧ price ≤ (offer.order s.market position).sellToBuyPrice) ∧
      ∃ pending, made.1 = .ok pending ∧
        (s.IdsSuffice (coming.take (n + 1)).flatten → ∀ other,
          pending.wait ≠ .error (.transactionFailed (.rejected (.unknownPosition other)))) := by
  intro v made
  obtain ⟨position, absent', n, hposition, hlast, hestimate⟩ :=
    Shared.position_after hwants coming absent (Terms.price_of_div? hpay hbuy hprice)
  have hmade : made = _ := Client.make_eq (Terms.check_eq_ok_iff.mpr ⟨hpay, hbuy⟩) hposition
  refine ⟨position, absent', n, hposition, hmade, ?_, ?_⟩
  · rcases hestimate with hzero | ⟨o, ⟨k, hk, offer, hoffer, ho⟩, rfl, hpair, hle⟩
    · exact .inl hzero
    · rw [ho] at hpair hle
      exact .inr ⟨k, hk, offer, hoffer, hpair, hle⟩
  · let t := s.run (coming.take (n + 1)).flatten
    have htkind : t.kind = .matching := (s.kind_run _).trans hkind
    have htmarket : t.market = s.market := s.market_run _
    obtain ⟨pending, hpending, hknown⟩ := Sandbox.exists_pending_offer htkind terms position
    rw [htmarket] at hpending
    refine ⟨pending, ?_, fun hids => hknown (UInt64.le_trans hlast ?_)⟩
    · rw [hmade, Client.submit_fst, Shared.submit_after, hpending]
      rfl
    · -- the position was given out before the first request, and the last id only grows after it
      have hsplit : (coming.take (n + 1)).flatten =
          (coming.take 1).flatten ++ ((coming.drop 1).take n).flatten := by
        rw [Nat.add_comm, List.take_add, List.flatten_append]
      rw [hsplit, Sandbox.idsSuffice_append] at hids
      change _ ≤ (s.run (coming.take (n + 1)).flatten).lastId
      rw [hsplit, Sandbox.run_append]
      exact Sandbox.lastId_le_run hids.2

/-- A client asks for the last id and for the one order that there is, which is killed before its
own offer is handed in behind it. -/
theorem estimate_never_refused_of_trial :
    let s := Sandbox.trialMatching.insert (Sandbox.trialMatching.offerOf Sandbox.trialTerms)
    let kill := Move.submit ((Command.kill 1).intent s.market)
    let made := Client.make Shared.ledger s.market .matching Sandbox.trialTerms
      ⟨∅, ⟨s, [[], [], [kill]]⟩⟩
    (s.run [kill]).offer? 1 = none ∧
      ∃ w, made = Client.submit Shared.ledger
          ((Command.offer Sandbox.trialTerms 1).intent s.market) w ∧
        ∃ pending, made.1 = .ok pending ∧ ∀ other,
          pending.wait ≠ .error (.transactionFailed (.rejected (.unknownPosition other))) := by
  intro s kill made
  have hlive (id : OrderId) (offer : Offer) (h : s.offer? id = some offer) :
      0 < offer.buyAmount.raw.toNat := by
    rw [Sandbox.offer?_insert] at h
    split at h
    · cases h
      decide
    · cases h
  obtain ⟨price, hprice⟩ : ∃ price,
      Sandbox.trialTerms.payAmount.div? Sandbox.trialTerms.buyAmount = some price :=
    Option.isSome_iff_exists.mp rfl
  obtain ⟨position, absent, n, hposition, hmade, _, pending, hpending, hknown⟩ :=
    estimate_never_refused s rfl hlive ∅ [[], [], [kill]] Sandbox.trialTerms (by decide) (by decide)
      price hprice
  have hone : (Client.position Shared.ledger s.market Sandbox.trialTerms
      ⟨∅, ⟨s, [[], [], [kill]]⟩⟩).1.toOption = some 1 := by decide +kernel
  rw [hposition] at hone
  obtain rfl := Option.some.inj hone
  have hids : s.IdsSuffice ([[], [], [kill]] : List (List Move)).flatten := ⟨by decide, trivial⟩
  rw [← List.take_append_drop (n + 1) [[], [], [kill]], List.flatten_append,
    Sandbox.idsSuffice_append] at hids
  exact ⟨by decide, _, hmade, pending, hpending, hknown hids.1⟩

end Barter
