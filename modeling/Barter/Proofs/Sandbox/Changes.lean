import Barter.Proofs.Sandbox.Actions
import Barter.Proofs.Sandbox.Handling
import Barter.Proofs.Sandbox.Ids
import Mathlib.Logic.ExistsUnique

namespace Barter

def Command.terms? : Command → Option Terms
  | .make terms => some terms
  | .offer terms _ => some terms
  | _ => none

def Session.SandboxAction.IsPlacing : SandboxAction → Prop
  | .insert _ => True
  | .insertAt _ _ => True
  | _ => False

structure Offer.Reduces (offer : Offer) (quantity : Wad) (rest : Offer) : Prop where
  quantity_pos : 0 < quantity.raw.toNat
  quantity_lt : quantity < offer.payAmount
  pay_eq : rest.payAmount.raw.toNat + quantity.raw.toNat = offer.payAmount.raw.toNat
  buy_eq : rest.buyAmount.raw.toNat +
    quantity.raw.toNat * offer.buyAmount.raw.toNat / offer.payAmount.raw.toNat =
      offer.buyAmount.raw.toNat
  same : rest = { offer with payAmount := rest.payAmount, buyAmount := rest.buyAmount }

inductive Change where
  | made
  | reduced
  | soldOut
  | cancelled

namespace Sandbox

open Session

/-- Why something else stands under an id than before: an order is made or taken from on a market
that is open, or cancelled by its owner or after the market has closed. -/
inductive Explains (s after : Sandbox) : Change → Command → OrderId → Prop
  | made (c : Command) (terms : Terms) (hterms : c.terms? = some terms)
      (hopen : s.isClosed = false)
      (hnew : s.Issued → s.lastId ≤ after.lastId → s.offer? s.nextId = none)
      (hafter : after.offer? s.nextId = some (s.offerOf terms)) :
      Explains s after .made c s.nextId
  | reduced (id : OrderId) (offer rest : Offer) (quantity : Wad) (hoffer : s.offer? id = some offer)
      (hopen : s.isClosed = false) (hrest : offer.Reduces quantity rest)
      (hafter : after.offer? id = some rest) : Explains s after .reduced (.take id quantity) id
  | soldOut (id : OrderId) (offer : Offer) (quantity : Wad) (hoffer : s.offer? id = some offer)
      (hopen : s.isClosed = false) (hall : quantity = offer.payAmount)
      (hafter : after.offer? id = none) : Explains s after .soldOut (.take id quantity) id
  | cancelled (id : OrderId) (offer : Offer) (hoffer : s.offer? id = some offer)
      (hallowed : offer.owner = s.sender ∨ s.isClosed = true)
      (hafter : after.offer? id = none) : Explains s after .cancelled (.kill id) id

def Follows (s after : Sandbox) (c : Command) (id : OrderId) : Prop :=
  (after.offer? id = s.offer? id ∨ ∃ change, s.Explains after change c id) ∧
    ∀ other, other ≠ id → after.offer? other = s.offer? other

def Removes (s : Sandbox) (intent : Intent) (id : OrderId) (offer : Offer) : Prop :=
  ∃ c, Command.ofCall s.kind intent.method intent.args = .ok c ∧
    (c = .take id offer.payAmount ∧ s.isClosed = false ∨
      c = .kill id ∧ (offer.owner = s.sender ∨ s.isClosed = true))

namespace Explains

variable {s after : Sandbox} {change other : Change} {c : Command} {id : OrderId}

theorem unique (h : s.Explains after change c id) (h' : s.Explains after other c id) :
    other = change := by
  cases h with
  | made _ _ hterms =>
      cases h' with
      | made => rfl
      | reduced | soldOut | cancelled => cases hterms
  | reduced _ _ _ _ _ _ _ hleft =>
      cases h' with
      | made _ _ hterms => cases hterms
      | reduced => rfl
      | soldOut _ _ _ _ _ _ hgone => cases hgone.symm.trans hleft
  | soldOut _ _ _ _ _ _ hgone =>
      cases h' with
      | made _ _ hterms => cases hterms
      | reduced _ _ _ _ _ _ _ hleft => cases hgone.symm.trans hleft
      | soldOut => rfl
  | cancelled =>
      cases h' with
      | made _ _ hterms => cases hterms
      | cancelled => rfl

/-- A transaction counts its sender's nonce and fills a block around the command. -/
theorem of_started {logs : List Log} (h : s.started.Explains after change c id) :
    s.Explains (after.mine logs) change c id := by
  rw [mine_eq]
  cases h with
  | made c terms hterms hopen hnew hafter => exact .made c terms hterms hopen hnew hafter
  | reduced id offer rest quantity hoffer hopen hrest hafter =>
      exact .reduced id offer rest quantity hoffer hopen hrest hafter
  | soldOut id offer quantity hoffer hopen hall hafter =>
      exact .soldOut id offer quantity hoffer hopen hall hafter
  | cancelled id offer hoffer hallowed hafter => exact .cancelled id offer hoffer hallowed hafter

theorem owner_eq {offer left : Offer} (h : s.Explains after change c id) (hs : s.Issued)
    (hids : s.lastId ≤ after.lastId) (hoffer : s.offer? id = some offer)
    (hleft : after.offer? id = some left) : left.owner = offer.owner := by
  cases h with
  | made _ _ _ _ hnew => cases (hnew hs hids).symm.trans hoffer
  | soldOut _ _ _ _ _ _ hgone | cancelled _ _ _ _ hgone => cases hgone.symm.trans hleft
  | reduced _ found rest _ hfound _ hrest hafter =>
      obtain rfl := Option.some.inj (hfound.symm.trans hoffer)
      obtain rfl := Option.some.inj (hafter.symm.trans hleft)
      rw [hrest.same]

theorem removes {intent : Intent} {offer : Offer} (h : s.Explains after change c id)
    (hread : Command.ofCall s.kind intent.method intent.args = .ok c)
    (hoffer : s.offer? id = some offer) (hgone : after.offer? id = none) :
    s.Removes intent id offer := by
  cases h with
  | made _ _ _ _ _ hafter | reduced _ _ _ _ _ _ _ hafter =>
      cases hafter.symm.trans hgone
  | soldOut _ found _ hfound hopen hall =>
      obtain rfl := Option.some.inj (hfound.symm.trans hoffer)
      exact ⟨_, hread, .inl ⟨by rw [hall], hopen⟩⟩
  | cancelled _ found hfound hallowed =>
      obtain rfl := Option.some.inj (hfound.symm.trans hoffer)
      exact ⟨_, hread, .inr ⟨rfl, hallowed⟩⟩

theorem gone_of_closed (h : s.Explains after change c id) (hclosed : s.isClosed = true) :
    after.offer? id = none := by
  cases h with
  | made _ _ _ hopen | reduced _ _ _ _ _ hopen | soldOut _ _ _ _ hopen =>
      cases hopen.symm.trans hclosed
  | cancelled _ _ _ _ hgone => exact hgone

end Explains

section

variable {s after : Sandbox} {c : Command} {logs : List Log}

theorem follows_of_create {terms : Terms} (hterms : c.terms? = some terms)
    (h : s.create terms = .ok (after, logs)) : s.Follows after c s.nextId := by
  obtain ⟨haccepts, heffect⟩ := create_eq_ok_iff.mp h
  obtain ⟨rfl, _⟩ := Prod.mk.inj heffect
  have hnew (hs : s.Issued) (hids : s.lastId ≤ s.nextId) : s.offer? s.nextId = none :=
    Decidable.not_not.mp fun hlive => UInt64.not_le.mpr (lt_nextId hids) (hs s.nextId hlive)
  refine ⟨.inr ⟨.made, .made c terms hterms haccepts.isOpen hnew ?_⟩, fun other hne => ?_⟩
  · exact (offer?_insert ..).trans (if_pos rfl)
  · exact (offer?_insert ..).trans (if_neg (Ne.symm hne))

theorem reduces_of_fill {offer rest : Offer} {quantity given : Wad}
    (hfill : offer.IsFill quantity given) (hrest : remainder? offer quantity given = some rest) :
    offer.Reduces quantity rest := by
  rcases remainder?_cases hfill with ⟨hnone, _⟩ | ⟨left, hleft, hpay, hbuy, hpos, _⟩
  · cases hnone.symm.trans hrest
  · obtain rfl := Option.some.inj (hleft.symm.trans hrest)
    have hlt : quantity.raw.toNat < offer.payAmount.raw.toNat := by omega
    rw [hfill.given_eq] at hbuy
    obtain ⟨_, hsame⟩ := Option.ite_none_left_eq_some.mp hrest
    refine ⟨hfill.quantity_pos, hlt, hpay, hbuy, ?_⟩
    cases hsame
    rfl

theorem explains_of_fill {id : OrderId} {offer : Offer} {quantity given : Wad}
    (hopen : s.isClosed = false) (hoffer : s.offer? id = some offer)
    (hfill : offer.IsFill quantity given)
    (hafter : after.offer? id = remainder? offer quantity given) :
    ∃ change, s.Explains after change (.take id quantity) id := by
  rcases remainder?_cases hfill with ⟨hnone, hall, _⟩ | ⟨rest, hrest, _⟩
  · exact ⟨.soldOut, .soldOut id offer quantity hoffer hopen (Wad.ext (Word.ext hall))
      (hafter.trans hnone)⟩
  · exact ⟨.reduced, .reduced id offer rest quantity hoffer hopen (reduces_of_fill hfill hrest)
      (hafter.trans hrest)⟩

theorem follows_of_execute (h : s.execute c = .ok (after, logs)) :
    ∃ id, s.Follows after c id := by
  cases c with
  | make terms => exact ⟨_, follows_of_create rfl h⟩
  | offer terms position =>
      simp only [execute] at h
      split at h
      · cases h
      · exact ⟨_, follows_of_create rfl h⟩
  | bump id =>
      obtain ⟨offer, _, heffect⟩ := bump_eq_ok_iff.mp h
      obtain ⟨rfl, _⟩ := Prod.mk.inj heffect
      exact ⟨id, .inl rfl, fun _ _ => rfl⟩
  | take id quantity =>
      obtain ⟨hopen, offer, given, hoffer, hfill, heffect⟩ := take_eq_ok_iff.mp h
      obtain ⟨rfl, _⟩ := Prod.mk.inj heffect
      refine ⟨id, .inr (explains_of_fill hopen hoffer hfill ?_), fun other hne => ?_⟩
      · exact (offer?_setOffer ..).trans (if_pos rfl)
      · exact (offer?_setOffer ..).trans (if_neg (Ne.symm hne))
  | kill id =>
      obtain ⟨offer, hoffer, hallowed, heffect⟩ := kill_eq_ok_iff.mp h
      obtain ⟨rfl, _⟩ := Prod.mk.inj heffect
      refine ⟨id, .inr ⟨.cancelled, .cancelled id offer hoffer hallowed ?_⟩, fun other hne => ?_⟩
      · exact (offer?_setOffer ..).trans (if_pos rfl)
      · exact (offer?_setOffer ..).trans (if_neg (Ne.symm hne))
  | setBuyEnabled | setMatchingEnabled =>
      cases h
      exact ⟨0, .inl rfl, fun _ _ => rfl⟩
  | whitelist pair =>
      simp only [execute] at h
      split at h
      · cases h
      · cases h
        exact ⟨0, .inl rfl, fun _ _ => rfl⟩

end

theorem submit_follows (s : Sandbox) (intent : Intent) :
    (∀ id, (s.submit intent).2.offer? id = s.offer? id) ∨
      ∃ c, Command.ofCall s.kind intent.method intent.args = .ok c ∧
        ∃ id, s.Follows (s.submit intent).2 c id := by
  have h := s.submit_handles intent
  generalize (s.submit intent).1 = result at h
  generalize (s.submit intent).2 = after at h ⊢
  cases h with
  | elsewhere | unknown | garbled | rejected | trapped => exact .inl fun _ => rfl
  | mined _ _ c hread done logs hexec =>
      obtain ⟨id, hone, hothers⟩ := follows_of_execute hexec
      refine .inr ⟨c, hread, id, ?_, fun other hne =>
        (offer?_mine done logs other).trans (hothers other hne)⟩
      rcases hone with hsame | ⟨change, h⟩
      · exact .inl ((offer?_mine done logs id).trans hsame)
      · exact .inr ⟨change, h.of_started⟩

theorem act_follows {s : Sandbox} {a : SandboxAction} (ha : ¬ a.IsPlacing) (id : OrderId) :
    (s.act a).offer? id = s.offer? id ∨
      ∃ intent c change, a = .submit intent ∧
        Command.ofCall s.kind intent.method intent.args = .ok c ∧
        s.Explains (s.act a) change c id := by
  have hacts := s.act_acts a
  generalize s.act a = after at hacts ⊢
  cases hacts with
  | inserted | placed => exact absurd trivial ha
  | kept _ hoffers => exact .inl (offer?_of_offers_eq hoffers id)
  | submitted intent =>
      rcases s.submit_follows intent with hsame | ⟨c, hread, changed, hone, hothers⟩
      · exact .inl (hsame id)
      · by_cases hid : id = changed
        · subst hid
          exact hone.imp_right fun ⟨change, h⟩ => ⟨intent, c, change, rfl, hread, h⟩
        · exact .inl (hothers id hid)

theorem Issued.act {s : Sandbox} {a : SandboxAction} (hs : s.Issued) (ha : ¬ a.IsPlacing)
    (hids : s.lastId ≤ (s.act a).lastId) : (s.act a).Issued := by
  have hacts := s.act_acts a
  generalize s.act a = after at hacts hids ⊢
  cases hacts with
  | inserted | placed => exact absurd trivial ha
  | submitted intent => exact hs.move (m := .submit intent) hids
  | kept _ hoffers =>
      intro id hlive
      rw [offer?_of_offers_eq hoffers] at hlive
      exact UInt64.le_trans (hs id hlive) hids

/-- An order that is gone at the end was taken off the market at some time, and had the same owner
then. -/
theorem removed_of_gone {s : Sandbox} {actions : List SandboxAction}
    (hplain : ∀ a ∈ actions, ¬ a.IsPlacing) (hs : s.Issued) (hids : s.CountsOn actions)
    {id : OrderId} {offer : Offer} (hoffer : s.offer? id = some offer)
    (hgone : (s.perform actions).offer? id = none) :
    ∃ before intent rest left, actions = before ++ .submit intent :: rest ∧
      (s.perform before).offer? id = some left ∧ left.owner = offer.owner ∧
      (s.perform before).Removes intent id left := by
  -- what is left of the order by then takes its place in the rest of the run
  induction actions generalizing s offer with
  | nil => cases hgone.symm.trans hoffer
  | cons a rest ih =>
      obtain ⟨ha, hrest⟩ := List.forall_mem_cons.mp hplain
      have hstep := act_follows (s := s) ha id
      cases hnext : (s.act a).offer? id with
      | none =>
          rcases hstep with hsame | ⟨intent, c, change, rfl, hread, h⟩
          · cases hnext.symm.trans (hsame.trans hoffer)
          · exact ⟨[], intent, rest, offer, rfl, hoffer, rfl, h.removes hread hoffer hnext⟩
      | some left =>
          have howner : left.owner = offer.owner := by
            rcases hstep with hsame | ⟨intent, c, change, _, _, h⟩
            · rw [Option.some.inj (hnext.symm.trans (hsame.trans hoffer))]
            · exact h.owner_eq hs hids.1 hoffer hnext
          obtain ⟨before, intent, later, found, rfl, hfound, hsame, hremoves⟩ :=
            ih hrest (hs.act ha hids.1) hids.2 hnext hgone
          exact ⟨a :: before, intent, later, found, rfl, hfound, hsame.trans howner, hremoves⟩

theorem kept_or_gone_of_closed {s : Sandbox} {actions : List SandboxAction}
    (hplain : ∀ a ∈ actions, ¬ a.IsPlacing)
    (hclosed : ∀ before intent rest, actions = before ++ .submit intent :: rest →
      (s.perform before).isClosed = true) (id : OrderId) :
    (s.perform actions).offer? id = s.offer? id ∨ (s.perform actions).offer? id = none := by
  induction actions generalizing s with
  | nil => exact .inl rfl
  | cons a rest ih =>
      obtain ⟨ha, hrest⟩ := List.forall_mem_cons.mp hplain
      have hlater := ih hrest fun before intent later hsplit =>
        hclosed (a :: before) intent later (congrArg (a :: ·) hsplit)
      rcases act_follows (s := s) ha id with hsame | ⟨intent, c, change, rfl, _, h⟩
      · rw [← hsame]
        exact hlater
      · have hgone := h.gone_of_closed (hclosed [] intent rest rfl)
        rw [hgone, or_self] at hlater
        exact .inr hlater

/-- A transaction changes one order at most, and then its command explains the change in exactly one
way. -/
theorem change_explained (s : Sandbox) :
    (∀ intent,
      let after := (s.submit intent).2
      (∀ id other, after.offer? id ≠ s.offer? id → after.offer? other ≠ s.offer? other →
        id = other) ∧
      ∀ id, after.offer? id ≠ s.offer? id →
        ∃ c, Command.ofCall s.kind intent.method intent.args = .ok c ∧
          ∃! change, s.Explains after change c id) ∧
    ∀ actions : List SandboxAction, (∀ a ∈ actions, ¬ a.IsPlacing) →
      (s.Issued → s.CountsOn actions → ∀ id offer, s.offer? id = some offer →
        (s.perform actions).offer? id = none →
        ∃ before intent rest left, actions = before ++ .submit intent :: rest ∧
          (s.perform before).offer? id = some left ∧ left.owner = offer.owner ∧
          (s.perform before).Removes intent id left) ∧
      ((∀ before intent rest, actions = before ++ .submit intent :: rest →
          (s.perform before).isClosed = true) →
        ∀ id, (s.perform actions).offer? id = s.offer? id ∨
          (s.perform actions).offer? id = none) := by
  refine ⟨fun intent => ?_, fun actions hplain => ⟨?_, kept_or_gone_of_closed hplain⟩⟩
  · intro after
    rcases s.submit_follows intent with hsame | ⟨c, hread, changed, hone, hothers⟩
    · exact ⟨fun id _ hid => absurd (hsame id) hid, fun id hid => absurd (hsame id) hid⟩
    · have eq_changed (id : OrderId) (h : after.offer? id ≠ s.offer? id) : id = changed :=
        Decidable.not_not.mp fun hne => h (hothers id hne)
      refine ⟨fun id other hid hother => (eq_changed id hid).trans (eq_changed other hother).symm,
        fun id hid => ⟨c, hread, ?_⟩⟩
      obtain rfl := eq_changed id hid
      obtain ⟨change, h⟩ := hone.resolve_left hid
      exact ⟨change, h, fun _ h' => h.unique h'⟩
  · intro hs hids id offer hoffer hgone
    exact removed_of_gone hplain hs hids hoffer hgone

def trialSale : List SandboxAction :=
  [.submit ((Command.make trialTerms).intent trial.market), .setSender (Bytes.ofNat 20 9),
    .submit ((Command.kill 1).intent trial.market),
    .submit ((Command.take 1 ⟨.ofUInt64 3⟩).intent trial.market)]

theorem change_explained_of_trial :
    let s := trial.perform (trialSale.take 3)
    (s.offer? 1).map Offer.owner = some trial.sender ∧ s.sender ≠ trial.sender ∧
      (trial.perform trialSale).offer? 1 = none ∧
      ∃ before intent rest left, trialSale.drop 3 = before ++ .submit intent :: rest ∧
        left.owner = trial.sender ∧ (s.perform before).Removes intent 1 left := by
  intro s
  have hlive : s.offer? 1 = some (trial.offerOf trialTerms) := by decide
  have hplain : ∀ a ∈ trialSale.drop 3, ¬ a.IsPlacing := by
    simp [trialSale, SandboxAction.IsPlacing]
  have hissued : s.Issued :=
    (((issued_new _ _ _ _).act id (by decide)).act id (by decide)).act id (by decide)
  obtain ⟨before, intent, rest, left, hsplit, _, howner, hremoves⟩ :=
    ((change_explained s).2 _ hplain).1 hissued ⟨by decide, trivial⟩ 1 _ hlive (by decide)
  exact ⟨by decide, by decide, by decide, before, intent, rest, left, hsplit, howner, hremoves⟩

end Sandbox

end Barter
