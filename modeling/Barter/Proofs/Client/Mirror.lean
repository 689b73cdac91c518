import Barter.Proofs.Client.Absence
import Barter.Proofs.Sandbox.Freshness

namespace Barter

open Client Session

namespace Sandbox

def lookup (s : Sandbox) (id : OrderId) : Lookup :=
  match s.offer? id with
  | some offer => .present (offer.order s.market id)
  | none => .absent

def order? (s : Sandbox) (k : Nat) : Option Order :=
  (s.offer? (.ofNat k)).map (·.order s.market (.ofNat k))

def ordersIn (s : Sandbox) (n count : Nat) : List Order :=
  (List.range' n count).filterMap s.order?

theorem order?_eq_some_iff {s : Sandbox} {k : Nat} {o : Order} :
    s.order? k = some o ↔
      ∃ offer, s.offer? (.ofNat k) = some offer ∧ offer.order s.market (.ofNat k) = o :=
  Option.map_eq_some_iff

theorem ordersIn_pairwise (s : Sandbox) {n count : Nat} (hsize : n + count ≤ UInt64.size) :
    (s.ordersIn n count).Pairwise (·.id < ·.id) := by
  refine List.pairwise_filterMap.mpr
    ((List.pairwise_lt_range' 1).imp_of_mem fun {j k} hj hk hlt o ho o' ho' => ?_)
  obtain ⟨_, _, rfl⟩ := order?_eq_some_iff.mp ho
  obtain ⟨_, _, rfl⟩ := order?_eq_some_iff.mp ho'
  have hk := (List.mem_range'_1.mp hk).2
  exact (UInt64.ofNat_lt_iff_lt (by omega) (by omega)).mpr hlt

theorem WellFormed.mem_ordersIn {s : Sandbox} (hs : s.WellFormed) {o : Order} :
    o ∈ s.ordersIn 1 s.lastId.toNat ↔
      ∃ offer, s.offer? o.id = some offer ∧ o = offer.order s.market o.id := by
  rw [ordersIn, List.mem_filterMap]
  constructor
  · rintro ⟨k, _, ho⟩
    obtain ⟨offer, hoffer, rfl⟩ := order?_eq_some_iff.mp ho
    exact ⟨offer, hoffer, rfl⟩
  · rintro ⟨offer, hoffer, ho⟩
    have hone := UInt64.le_iff_toNat_le.mp (hs.one_le o.id offer hoffer)
    have hle := UInt64.le_iff_toNat_le.mp (hs.le_lastId o.id offer hoffer)
    have hid : UInt64.ofNat o.id.toNat = o.id := UInt64.ofNat_toNat
    refine ⟨o.id.toNat, List.mem_range'_1.mpr ⟨hone, by omega⟩, order?_eq_some_iff.mpr ?_⟩
    rw [hid]
    exact ⟨offer, hoffer, ho.symm⟩

end Sandbox

namespace View

def looked (v : View Sandbox) (id : OrderId) : View Sandbox :=
  if v.absent.contains id then v
  else
    match v.ledger.offer? id with
    | some _ => ⟨v.absent, v.ledger.asked⟩
    | none => ⟨v.absent.insert id, v.ledger.asked⟩

def lookedFrom (v : View Sandbox) (n : Nat) : Nat → View Sandbox
  | 0 => v
  | count + 1 => (v.looked (.ofNat n)).lookedFrom (n + 1) count

def unknownIn (v : View Sandbox) (n count : Nat) : Nat :=
  (List.range' n count).countP fun k => !v.absent.contains (.ofNat k)

def known (v : View Sandbox) : Nat :=
  (v.absent.toList.filter fun id => 1 ≤ id ∧ id ≤ v.ledger.lastId).length

variable {v : View Sandbox}

theorem ledger_looked (v : View Sandbox) (id : OrderId) :
    (v.looked id).ledger =
      { v.ledger with queries := v.ledger.queries + if !v.absent.contains id then 1 else 0 } := by
  unfold looked
  cases v.absent.contains id with
  | true => rfl
  | false => cases v.ledger.offer? id <;> rfl

theorem contains_looked {id other : OrderId} (h : id ≠ other) :
    (v.looked id).absent.contains other = v.absent.contains other := by
  unfold looked
  cases v.absent.contains id with
  | true => rfl
  | false =>
      cases v.ledger.offer? id with
      | some _ => rfl
      | none => simp [Std.ExtTreeSet.contains_insert, h]

theorem ledger_lookedFrom (v : View Sandbox) {n count : Nat} (hsize : n + count ≤ UInt64.size) :
    (v.lookedFrom n count).ledger =
      { v.ledger with queries := v.ledger.queries + v.unknownIn n count } := by
  induction count generalizing n v with
  | zero => rfl
  | succ count ih =>
      -- a lookup adds no id but its own, which a listing does not come to again
      have hrest : (v.looked (.ofNat n)).unknownIn (n + 1) count = v.unknownIn (n + 1) count := by
        refine List.countP_congr fun k hk => ?_
        obtain ⟨hlow, hhigh⟩ := List.mem_range'_1.mp hk
        have hlt : UInt64.ofNat n < UInt64.ofNat k :=
          (UInt64.ofNat_lt_iff_lt (by omega) (by omega)).mpr hlow
        rw [contains_looked (UInt64.ne_of_lt hlt)]
      have hcount : v.unknownIn n (count + 1) = v.unknownIn (n + 1) count +
          if !v.absent.contains (.ofNat n) then 1 else 0 := by
        rw [unknownIn, List.range'_succ, List.countP_cons]
        rfl
      rw [lookedFrom, ih _ (by omega), hrest, ledger_looked, hcount, Nat.add_comm (v.unknownIn _ _),
        ← Nat.add_assoc]

theorem known_eq_countP (v : View Sandbox) :
    v.known =
      (List.range' 1 v.ledger.lastId.toNat).countP fun k => v.absent.contains (.ofNat k) := by
  have hlast := v.ledger.lastId.toNat_lt
  -- both lists have the same members, and none of them twice
  have hnodup : ((v.absent.toList.filter fun id => 1 ≤ id ∧ id ≤ v.ledger.lastId).map
      UInt64.toNat).Nodup := by
    refine List.pairwise_map.mpr
      ((Std.ExtTreeSet.distinct_toList.filter _).imp fun {a b} hne heq => hne ?_)
    obtain rfl := UInt64.toNat_inj.mp heq
    exact Std.ReflCmp.compare_self
  have hmem (k : Nat) :
      k ∈ (v.absent.toList.filter fun id => 1 ≤ id ∧ id ≤ v.ledger.lastId).map UInt64.toNat ↔
        k ∈ (List.range' 1 v.ledger.lastId.toNat).filter fun k => v.absent.contains (.ofNat k) := by
    simp only [List.mem_map, List.mem_filter, List.mem_range'_1, Std.ExtTreeSet.mem_toList,
      Std.ExtTreeSet.contains_iff_mem, decide_eq_true_eq, UInt64.le_iff_toNat_le]
    constructor
    · rintro ⟨id, ⟨hid, hone, hle⟩, rfl⟩
      have hone : 1 ≤ id.toNat := hone
      rw [UInt64.ofNat_toNat]
      exact ⟨⟨hone, by omega⟩, hid⟩
    · rintro ⟨⟨hone, hle⟩, hid⟩
      have hk : (UInt64.ofNat k).toNat = k :=
        UInt64.toNat_ofNat_of_lt' (by simp only [UInt64.size]; omega)
      refine ⟨.ofNat k, ⟨hid, ?_, ?_⟩, hk⟩
      · rw [hk]
        exact hone
      · omega
  have hperm := (List.perm_ext_iff_of_nodup hnodup ((List.nodup_range' 1).filter _)).mpr hmem
  rw [List.countP_eq_length_filter, ← hperm.length_eq, List.length_map, known]

theorem unknownIn_eq (v : View Sandbox) :
    v.unknownIn 1 v.ledger.lastId.toNat = v.ledger.lastId.toNat - v.known := by
  have hsplit := List.length_eq_countP_add_countP (l := List.range' 1 v.ledger.lastId.toNat)
    fun k => v.absent.contains (.ofNat k)
  have hnot : (fun k => decide ¬ v.absent.contains (.ofNat k) = true) =
      fun k => !v.absent.contains (.ofNat k) := by
    funext k
    cases v.absent.contains (.ofNat k) <;> rfl
  rw [List.length_range', ← v.known_eq_countP, hnot] at hsplit
  exact (Nat.sub_eq_of_eq_add' hsplit).symm

end View

structure Mirrors (market : Address) (v : View Sandbox) : Prop where
  coherent : Coherent market (fun _ => False) v.absent v.ledger
  wellFormed : v.ledger.WellFormed

namespace Mirrors

variable {market : Address} {v : View Sandbox} {id : OrderId}

theorem gone (h : Mirrors market v) (hid : id ∈ v.absent) :
    id ≤ v.ledger.lastId ∧ v.ledger.offer? id = none :=
  (h.coherent.known id hid).resolve_left not_false

theorem asked (h : Mirrors market v) : Mirrors market ⟨v.absent, v.ledger.asked⟩ :=
  ⟨h.coherent.asked, h.wellFormed.of_offers_eq rfl (UInt64.le_refl _)⟩

theorem order_eq (h : Mirrors market v) (id : OrderId) :
    Client.order Sandbox.ledger market id v = (.ok (v.ledger.lookup id), v.looked id) := by
  have hcall := v.ledger.call_answer (q := .offer id) rfl
  rw [h.coherent.market, Sandbox.answer] at hcall
  unfold View.looked Sandbox.lookup
  by_cases hmem : id ∈ v.absent
  · rw [order_of_mem hmem, if_pos (Std.ExtTreeSet.contains_iff_mem.mpr hmem), (h.gone hmem).2]
  · rw [if_neg (mt Std.ExtTreeSet.contains_iff_mem.mp hmem)]
    cases hoffer : v.ledger.offer? id with
    | none =>
        rw [hoffer] at hcall
        exact order_of_empty hmem hcall
    | some offer =>
        rw [hoffer] at hcall
        have hbuy := Wad.isZero_eq_false_iff.mpr (h.wellFormed.positive id offer hoffer).buy_pos
        rw [order_of_live hmem hcall, hbuy, h.coherent.market]
        rfl

theorem looked (h : Mirrors market v) (hle : id ≤ v.ledger.lastId) :
    Mirrors market (v.looked id) := by
  unfold View.looked
  cases v.absent.contains id with
  | true => exact h
  | false =>
      cases hoffer : v.ledger.offer? id with
      | some offer => exact h.asked
      | none => exact ⟨h.asked.coherent.insert hle hoffer, h.asked.wellFormed⟩

theorem ordersFrom_eq (h : Mirrors market v) {n count : Nat}
    (hle : n + count ≤ v.ledger.lastId.toNat + 1) (found : List Order) :
    Client.ordersFrom Sandbox.ledger market (.ofNat n) found count v =
        (.ok (found.reverse ++ v.ledger.ordersIn n count), v.lookedFrom n count) ∧
      Mirrors market (v.lookedFrom n count) := by
  induction count generalizing n found v with
  | zero =>
      rw [show v.ledger.ordersIn n 0 = [] from rfl, List.append_nil]
      exact ⟨rfl, h⟩
  | succ count ih =>
      have hlast := v.ledger.lastId.toNat_lt
      have hid : UInt64.ofNat n ≤ v.ledger.lastId := by
        rw [UInt64.le_iff_toNat_le, UInt64.toNat_ofNat_of_lt' (by simp only [UInt64.size]; omega)]
        omega
      have hnext : UInt64.ofNat n + 1 = UInt64.ofNat (n + 1) := (UInt64.ofNat_add n 1).symm
      have hledger := v.ledger_looked (.ofNat n)
      have hrest (found : List Order) := ih (h.looked hid) (n := n + 1)
        (by rw [hledger]; simp only; omega) found
      have hsame : (v.looked (.ofNat n)).ledger.ordersIn (n + 1) count =
          v.ledger.ordersIn (n + 1) count := by
        rw [hledger]
        rfl
      rw [hsame] at hrest
      refine ⟨?_, (hrest []).2⟩
      rw [ordersFrom_succ, h.order_eq, hnext, View.lookedFrom, Sandbox.ordersIn, List.range'_succ,
        List.filterMap_cons, Sandbox.order?, Sandbox.lookup]
      cases v.ledger.offer? (.ofNat n) with
      | none => exact (hrest found).1
      | some offer =>
          refine (hrest _).1.trans ?_
          rw [List.reverse_cons, List.append_assoc]
          rfl

end Mirrors

inductive Episode where
  | act (a : SandboxAction)
  | lastOrderId
  | order (id : OrderId)
  | orders

namespace Episode

def play (market : Address) (v : View Sandbox) : Episode → View Sandbox
  | act a => { v with ledger := v.ledger.act a }
  | lastOrderId => (Client.lastOrderId Sandbox.ledger market v).2
  | order id => (Client.order Sandbox.ledger market id v).2
  | orders => (Client.orders Sandbox.ledger market v).2

def playAll (market : Address) (v : View Sandbox) (episodes : List Episode) : View Sandbox :=
  episodes.foldl (play market) v

/-- All orders come in with a transaction, or are put in place with positive amounts under the next
id. The count of ids never starts again from zero, and the client looks up no id that was not given
out yet. -/
def IsFair (v : View Sandbox) : Episode → Prop
  | act a =>
      a.IsProper ∧ (∀ id offer, a ≠ .insertAt id offer) ∧ v.ledger.lastId ≤ (v.ledger.act a).lastId
  | order id => id ≤ v.ledger.lastId
  | lastOrderId => True
  | orders => True

def AllFair (market : Address) (v : View Sandbox) : List Episode → Prop
  | [] => True
  | e :: rest => e.IsFair v ∧ AllFair market (e.play market v) rest

end Episode

namespace Mirrors

variable {market : Address} {v : View Sandbox}

theorem act (h : Mirrors market v) {a : SandboxAction} (hfair : (Episode.act a).IsFair v) :
    Mirrors market ⟨v.absent, v.ledger.act a⟩ := by
  obtain ⟨hproper, hplace, hids⟩ := hfair
  have hafter : (v.ledger.act a).WellFormed := h.wellFormed.act hproper hids
  refine ⟨⟨(v.ledger.market_act a).trans h.coherent.market, hafter.issued, fun id hid => ?_, nofun⟩,
    hafter⟩
  obtain ⟨hle, hgone⟩ := h.gone hid
  exact .inr ⟨UInt64.le_trans hle hids, Sandbox.act_offer?_eq_none hids hplace hle hgone⟩

theorem lastOrderId_eq (h : Mirrors market v) :
    Client.lastOrderId Sandbox.ledger market v =
      (.ok v.ledger.lastId, ⟨v.absent, v.ledger.asked⟩) := by
  have hcall := v.ledger.call_answer (q := .lastOfferId) rfl
  rw [h.coherent.market, Sandbox.answer] at hcall
  exact Client.lastOrderId_eq hcall

theorem orders_eq (h : Mirrors market v) :
    Client.orders Sandbox.ledger market v =
        (.ok (v.ledger.ordersIn 1 v.ledger.lastId.toNat),
          View.lookedFrom ⟨v.absent, v.ledger.asked⟩ 1 v.ledger.lastId.toNat) ∧
      Mirrors market (View.lookedFrom ⟨v.absent, v.ledger.asked⟩ 1 v.ledger.lastId.toNat) := by
  rw [Client.orders, Step.bind_apply, h.lastOrderId_eq]
  exact h.asked.ordersFrom_eq (n := 1) (Nat.le_of_eq (Nat.add_comm 1 _)) []

theorem play (h : Mirrors market v) {e : Episode} (hfair : e.IsFair v) :
    Mirrors market (e.play market v) := by
  cases e with
  | act a => exact h.act hfair
  | lastOrderId =>
      rw [Episode.play, h.lastOrderId_eq]
      exact h.asked
  | order id =>
      rw [Episode.play, h.order_eq]
      exact h.looked hfair
  | orders =>
      rw [Episode.play, h.orders_eq.1]
      exact h.orders_eq.2

theorem playAll (h : Mirrors market v) {episodes : List Episode}
    (hfair : Episode.AllFair market v episodes) :
    Mirrors market (Episode.playAll market v episodes) := by
  induction episodes generalizing v with
  | nil => exact h
  | cons e rest ih => exact ih (h.play hfair.1) hfair.2

end Mirrors

/-- As long as all is fair, a listing gives just the orders that are live at that time, and asks
once for the last id and once for every id that it does not know to be gone. -/
theorem orders_mirror_book (s : Sandbox) (hs : s.WellFormed) (episodes : List Episode)
    (hfair : Episode.AllFair s.market ⟨∅, s⟩ episodes) :
    let v := Episode.playAll s.market ⟨∅, s⟩ episodes
    (∃ listed w, Client.orders Sandbox.ledger s.market v = (.ok listed, w) ∧
      listed.Pairwise (·.id < ·.id) ∧
      (∀ o, o ∈ listed ↔
        ∃ offer, v.ledger.offer? o.id = some offer ∧ o = offer.order s.market o.id) ∧
      w.ledger =
        { v.ledger with
          queries := v.ledger.queries + (1 + (v.ledger.lastId.toNat - v.known)) }) ∧
    ∀ id, id ≤ v.ledger.lastId → (Client.order Sandbox.ledger s.market id v).1 =
      match v.ledger.offer? id with
      | some offer => .ok (.present (offer.order s.market id))
      | none => .ok .absent := by
  intro v
  have hempty : Mirrors s.market ⟨∅, s⟩ := ⟨coherent_empty hs.issued, hs⟩
  have h : Mirrors s.market v := hempty.playAll hfair
  have hsize : 1 + v.ledger.lastId.toNat ≤ UInt64.size :=
    Nat.add_comm 1 _ ▸ v.ledger.lastId.toNat_lt
  refine ⟨⟨_, _, h.orders_eq.1, v.ledger.ordersIn_pairwise hsize, fun o => ?_, ?_⟩, fun id _ => ?_⟩
  · rw [h.wellFormed.mem_ordersIn, h.coherent.market]
  · have hcount := View.unknownIn_eq ⟨v.absent, v.ledger.asked⟩
    rw [View.ledger_lookedFrom _ hsize, ← Nat.add_assoc]
    exact congrArg (fun count => { v.ledger with queries := v.ledger.queries + 1 + count }) hcount
  · rw [h.order_eq, Sandbox.lookup, h.coherent.market]
    cases v.ledger.offer? id <;> rfl

def trialEpisodes : List Episode :=
  [.act (.submit ((Command.make Sandbox.trialTerms).intent Sandbox.trial.market)),
    .act (.insert (Sandbox.trial.offerOf Sandbox.trialTerms)),
    .act (.submit ((Command.kill 1).intent Sandbox.trial.market)), .orders, .order 1]

theorem orders_mirror_book_of_trial :
    let v := Episode.playAll Sandbox.trial.market ⟨∅, Sandbox.trial⟩ trialEpisodes
    v.ledger.lastId = 2 ∧ v.known = 1 ∧
      (∃ listed w, Client.orders Sandbox.ledger Sandbox.trial.market v = (.ok listed, w) ∧
        (∃ o ∈ listed, o.id = 2) ∧ w.ledger.queries = v.ledger.queries + 2) ∧
      (Client.order Sandbox.ledger Sandbox.trial.market 1 v).1 = .ok .absent := by
  intro v
  have hone : 1 ≤ (Episode.playAll Sandbox.trial.market ⟨∅, Sandbox.trial⟩
      (trialEpisodes.take 4)).ledger.lastId := by decide
  have hfair : Episode.AllFair Sandbox.trial.market ⟨∅, Sandbox.trial⟩ trialEpisodes :=
    ⟨⟨trivial, nofun, by decide⟩, ⟨⟨by decide, by decide⟩, nofun, by decide⟩,
      ⟨trivial, nofun, by decide⟩, trivial, hone, trivial⟩
  have hlast : v.ledger.lastId = 2 := by decide
  have hknown : v.known = 1 := by decide
  have hlive : v.ledger.offer? 2 = some (Sandbox.trial.offerOf Sandbox.trialTerms) := by decide
  have hgone : v.ledger.offer? 1 = none := by decide
  obtain ⟨⟨listed, w, horders, _, hmem, hledger⟩, hlookup⟩ :=
    orders_mirror_book Sandbox.trial (Sandbox.wellFormed_new _ _ _ _) trialEpisodes hfair
  refine ⟨hlast, hknown, ⟨listed, w, horders,
    ⟨_, (hmem (Offer.order _ Sandbox.trial.market 2)).mpr ⟨_, hlive, rfl⟩, rfl⟩, ?_⟩, ?_⟩
  · have hqueries : w.ledger.queries =
        v.ledger.queries + (1 + (v.ledger.lastId.toNat - v.known)) := congrArg _ hledger
    rw [hqueries, hlast, hknown]
    rfl
  · exact (hlookup 1 (by decide)).trans (by rw [hgone])

end Barter
