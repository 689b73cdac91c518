import Barter.Proofs.Client.Bumping
import Barter.Proofs.CommandLine.Tasks
import Barter.Proofs.Sandbox.Admission

namespace Barter

def Wad.IsEntered (a : Wad) : Prop :=
  ∃ text, Wad.ofText text = .ok a

namespace CommandLine

open Client

def Given.IsEntered (g : Given) : Prop :=
  ∀ a, g.payAmount = some a ∨ g.buyAmount = some a → a.IsEntered

def Task.IsEntered : Task → Prop
  | .position terms => terms.payAmount.IsEntered ∧ terms.buyAmount.IsEntered
  | _ => True

theorem isEntered_of_once {old new : Option Wad} {text : String} {a : Wad}
    (h : once old (amount text) = .ok new) (ha : new = some a) : a.IsEntered := by
  subst ha
  unfold once at h
  split at h
  · cases h
  · cases hread : amount text with
    | error e =>
        rw [hread] at h
        cases h
    | ok found =>
        rw [hread] at h
        cases h
        exact ⟨text, mapError_eq_ok_iff.mp hread⟩

namespace Given.IsEntered

variable {g g' : Given}

theorem put {f : Flag} {text : String} (hg : g.IsEntered) (h : g.put f text = .ok g') :
    g'.IsEntered := by
  cases f with
  | verbose | snapshot | payToken | buyToken =>
      obtain ⟨new, _, h⟩ := bind_eq_ok_iff.mp h
      cases h
      exact hg
  | payAmount =>
      obtain ⟨new, hnew, h⟩ := bind_eq_ok_iff.mp h
      cases h
      rintro a (ha | ha)
      · exact isEntered_of_once hnew ha
      · exact hg a (.inr ha)
  | buyAmount =>
      obtain ⟨new, hnew, h⟩ := bind_eq_ok_iff.mp h
      cases h
      rintro a (ha | ha)
      · exact hg a (.inl ha)
      · exact isEntered_of_once hnew ha

theorem settle {last : Last} (hg : g.IsEntered) (h : g.settle last = .ok g') : g'.IsEntered := by
  cases last with
  | none =>
      cases h
      exact hg
  | waiting => cases h
  | holding f text => exact hg.put h

theorem complete {c : Subcommand} {task : Task} (hg : g.IsEntered)
    (h : c.complete g = .ok task) : task.IsEntered := by
  cases c with
  | orders | lastId =>
      cases h
      trivial
  | position =>
      simp only [Subcommand.complete] at h
      split at h
      next payToken payAmount buyToken buyAmount _ hpay _ hbuy =>
        cases h
        exact ⟨hg _ (.inl hpay), hg _ (.inr hbuy)⟩
      next => cases h

end Given.IsEntered

namespace Progress

variable {p p' : Progress} {level : Option Subcommand}

theorem instead_ne_ok {u : Usage} : p.instead u ≠ .ok p' := by
  intro h
  obtain ⟨_, _, h⟩ := bind_eq_ok_iff.mp h
  cases h

theorem short_ne_ok {letter : Char} : p.short level letter ≠ .ok p' := by
  intro h
  unfold short at h
  split at h
  · exact instead_ne_ok h
  · split at h
    · exact instead_ne_ok h
    · cases h

theorem isEntered_long {name : String} {value : Option String} (hp : p.given.IsEntered)
    (h : p.long level name value = .ok p') : p'.given.IsEntered := by
  unfold long at h
  split at h
  · split at h
    · cases h
    · exact absurd h instead_ne_ok
  · split at h
    · cases h
    next f _ =>
      obtain ⟨settled, hsettle, h⟩ := bind_eq_ok_iff.mp h
      have hsettled := hp.settle hsettle
      cases value with
      | none =>
          cases h
          exact hsettled
      | some text =>
          obtain ⟨given, hput, h⟩ := bind_eq_ok_iff.mp h
          cases h
          exact hsettled.put hput

theorem isEntered_step {word : String} (hp : p.given.IsEntered)
    (h : p.step level word = .ok p') : p'.given.IsEntered := by
  unfold step at h
  split at h
  · split at h <;> cases h
  · split at h
    · cases h
      exact hp
    · exact isEntered_long hp h
    · exact absurd h short_ne_ok
    · cases h
      exact hp
    · cases h

theorem isEntered_foldlM {words : List String} (hp : p.given.IsEntered)
    (h : words.foldlM (fun p word => p.step level word) p = .ok p') : p'.given.IsEntered := by
  induction words generalizing p with
  | nil =>
      cases h
      exact hp
  | cons word rest ih =>
      rw [List.foldlM_cons] at h
      obtain ⟨next, hnext, h⟩ := bind_eq_ok_iff.mp h
      exact ih (isEntered_step hp hnext) h

end Progress

/-- Whatever is typed in, a task that comes of it knows no amounts but those that were entered. -/
theorem isEntered_of_words {words : List String} {invocation : Invocation}
    (h : Invocation.ofWords words = .ok invocation) : invocation.task.IsEntered := by
  obtain ⟨⟨before, found⟩, _, h⟩ := bind_eq_ok_iff.mp h
  cases found with
  | none =>
      obtain ⟨top, _, h⟩ := bind_eq_ok_iff.mp h
      split at h <;> cases h
  | some command =>
      obtain ⟨behind, hbehind, h⟩ := bind_eq_ok_iff.mp h
      obtain ⟨inner, hinner, h⟩ := bind_eq_ok_iff.mp h
      obtain ⟨task, htask, h⟩ := bind_eq_ok_iff.mp h
      obtain ⟨top, _, h⟩ := bind_eq_ok_iff.mp h
      cases h
      -- amounts are flags of the subcommand, so the words before it do not matter
      have hnothing : ({} : Progress).given.IsEntered := by
        rintro a (⟨⟨⟩⟩ | ⟨⟨⟩⟩)
      exact ((Progress.isEntered_foldlM hnothing hbehind).settle hinner).complete htask

theorem isEntered_of_plan {words : List String} {env : Environment} {task : Task} {path : String}
    (h : plan words env = .ok (task, path)) : task.IsEntered := by
  obtain ⟨invocation, hwords, h⟩ := bind_eq_ok_iff.mp h
  obtain ⟨path, _, h⟩ := bind_eq_ok_iff.mp h
  cases h
  exact isEntered_of_words (mapError_eq_ok_iff.mp hwords)

theorem plan_ne_failure {words : List String} {env : Environment} {f : Failure} :
    plan words env ≠ .error (.failure f) := by
  intro h
  rcases bind_eq_error_iff.mp h with hwords | ⟨invocation, _, h⟩
  · obtain ⟨_, _, hproblem⟩ := mapError_eq_error_iff.mp hwords
    cases hproblem
  · rcases bind_eq_error_iff.mp h with hpath | ⟨path, _, h⟩
    · obtain ⟨_, _, hproblem⟩ := mapError_eq_error_iff.mp hpath
      cases hproblem
    · cases h

theorem openMarket_ne_failure {start : UInt64} {file : Option String} {f : Failure} :
    openMarket start file ≠ .error (.failure f) := by
  intro h
  cases file with
  | none => cases h
  | some text =>
      obtain ⟨defect, _, hproblem⟩ := mapError_eq_error_iff.mp h
      cases hproblem

theorem exists_bind {ε α β : Type} {x : Except ε α} {f : α → Except ε β} (hx : ∃ a, x = .ok a)
    (hf : ∀ a, ∃ b, f a = .ok b) : ∃ b, x >>= f = .ok b := by
  obtain ⟨a, rfl⟩ := hx
  exact hf a

theorem exists_snapshot_of_openMarket {start : UInt64} {file : Option String} {market : Sandbox}
    (h : openMarket start file = .ok market) :
    ∃ snapshot : Snapshot, snapshot.sandbox start = .ok market := by
  cases file with
  | none => cases h
  | some text =>
      obtain ⟨snapshot, _, hopen⟩ := bind_eq_ok_iff.mp (mapError_eq_ok_iff.mp h)
      exact ⟨snapshot, hopen⟩

section

variable {start : UInt64} {file : Option String} {market : Sandbox}
  (hopened : openMarket start file = .ok market)

include hopened

theorem exists_onMarket_orders : ∃ listed, onMarket market orders = .ok listed := by
  obtain ⟨snapshot, hopen⟩ := exists_snapshot_of_openMarket hopened
  obtain ⟨hmarket, _⟩ := Sandbox.shows_of_snapshot hopen
  obtain ⟨_, listed, w, _, _, _, _, horders⟩ := orders_of_snapshot hopen
  refine ⟨listed, ?_⟩
  rw [onMarket, hmarket, horders]
  rfl

theorem exists_onMarket_lastId : ∃ last, onMarket market lastOrderId = .ok last := by
  obtain ⟨snapshot, hopen⟩ := exists_snapshot_of_openMarket hopened
  obtain ⟨hmarket, _⟩ := Sandbox.shows_of_snapshot hopen
  refine ⟨market.lastId, ?_⟩
  rw [onMarket, hmarket, (mirrors_of_snapshot hopen).lastOrderId_eq]
  rfl

theorem exists_listOrders : ∃ lines, listOrders market = .ok lines :=
  exists_bind (exists_onMarket_orders hopened) fun _ => ⟨_, rfl⟩

theorem exists_showLastId : ∃ lines, showLastId market = .ok lines :=
  exists_bind (exists_onMarket_lastId hopened) fun _ => ⟨_, rfl⟩

theorem exists_showPosition (price : Wad) (pair : TokenPair) :
    ∃ lines, showPosition price pair market = .ok lines := by
  refine exists_bind (exists_onMarket_orders hopened) fun listed => ?_
  simp only
  split
  · exact ⟨_, rfl⟩
  · exact ⟨_, rfl⟩

end

/-- An amount that was entered has a price against any other that is positive. -/
theorem zeroAmount_of_price {terms : Terms} {f : Failure} (hpay : terms.payAmount.IsEntered)
    (h : terms.price = .error f) : ∃ side, f = .invalidArgument (.zeroAmount side) := by
  rcases bind_eq_error_iff.mp h with hcheck | ⟨_, hcheck, _⟩
  · unfold Terms.check at hcheck
    split at hcheck
    · exact ⟨.pay, (Except.error.inj hcheck).symm⟩
    · split at hcheck
      · exact ⟨.buy, (Except.error.inj hcheck).symm⟩
      · cases hcheck
  · obtain ⟨text, hread⟩ := hpay
    obtain ⟨hpayPos, hbuyPos⟩ := Terms.check_eq_ok_iff.mp hcheck
    obtain ⟨price, hprice, _⟩ :=
      Terms.IsPriced.price_eq ⟨hpayPos, hbuyPos, Wad.scaled_lt_of_ofText hread⟩
    cases hprice.symm.trans h

theorem openMarket_bind_ne_failure {start : UInt64} {file : Option String} {f : Failure}
    {answer : Sandbox → Except Problem (List String)}
    (hanswer : ∀ market, openMarket start file = .ok market → ∃ lines, answer market = .ok lines) :
    openMarket start file >>= answer ≠ .error (.failure f) := by
  intro h
  rcases bind_eq_error_iff.mp h with hopen | ⟨market, hopen, h⟩
  · exact openMarket_ne_failure hopen
  · obtain ⟨lines, hlines⟩ := hanswer market hopen
    cases hlines.symm.trans h

theorem zeroAmount_of_run {task : Task} {start : UInt64} {file : Option String} {f : Failure}
    (htask : task.IsEntered) (h : task.run start file = .error (.failure f)) :
    ∃ side, f = .invalidArgument (.zeroAmount side) := by
  cases task with
  | orders => exact absurd h (openMarket_bind_ne_failure fun _ => exists_listOrders)
  | lastId => exact absurd h (openMarket_bind_ne_failure fun _ => exists_showLastId)
  | position terms =>
      rcases bind_eq_error_iff.mp h with hprice | ⟨price, _, h⟩
      · obtain ⟨cause, hcause, hf⟩ := mapError_eq_error_iff.mp hprice
        obtain rfl := Problem.failure.inj hf
        exact zeroAmount_of_price htask.1 hcause
      · exact absurd h (openMarket_bind_ne_failure fun _ hopen =>
          exists_showPosition hopen price terms.pair)

theorem zeroAmount_of_words {words : List String} {env : Environment} {settings : Option String}
    {read? : String → Option String} {start : UInt64} {f : Failure}
    (h : run words env settings read? start = .error (.failure f)) :
    ∃ side, f = .invalidArgument (.zeroAmount side) := by
  rcases bind_eq_error_iff.mp h with hplan | ⟨⟨task, path⟩, hplan, h⟩
  · exact absurd hplan plan_ne_failure
  · exact zeroAmount_of_run (isEntered_of_plan hplan) h

theorem exists_order_of_snapshot {snapshot : Snapshot} {start : UInt64} {market : Sandbox}
    (hopen : snapshot.sandbox start = .ok market) {d : SnapshotOrder} (hd : d ∈ snapshot.orders) :
    ∃ o, (order Sandbox.ledger snapshot.address d.id ⟨∅, market⟩).1 = .ok (.present o) ∧
      d.Describes snapshot.address o := by
  obtain ⟨hmarket, _⟩ := Sandbox.shows_of_snapshot hopen
  have hsound := Snapshot.exists_sandbox_iff.mp ⟨market, hopen⟩
  obtain ⟨_, pay, buy, hpay, hbuy, _, hpos⟩ := hsound.valid d hd
  let offer : Offer := ⟨⟨d.payToken, pay, d.buyToken, buy⟩, d.owner, d.timestamp⟩
  have hdescribes : d.Describes snapshot.address (offer.order snapshot.address d.id) :=
    ⟨rfl, rfl, rfl, rfl, hpay, rfl, hbuy, rfl⟩
  have hoffer := ((Snapshot.holds_of_sandbox hopen).offers d.id offer).mpr ⟨d, hd, hdescribes⟩
  have hempty : d.id ∉ (∅ : Std.ExtTreeSet OrderId) := Std.ExtTreeSet.not_mem_empty
  refine ⟨_, ?_, hdescribes⟩
  rw [← hmarket]
  exact order_eq_present hempty hoffer hpos

/-- Amounts that are entered as text have an exact price, since a mantissa of 96 bits leaves room
for eighteen more decimals; a command line fails, if at all, on an amount of zero. -/
theorem entered_amounts_priced :
    (∀ d : Decimal,
      (Wad.ofDecimal? d = none ↔ d.negative = true ∧ d.mantissa ≠ 0) ∧
      (d.negative = false ∨ d.mantissa = 0 → ∃ a, Wad.ofDecimal? d = some a ∧
        a.raw.toNat = d.mantissa * Wad.one / 10 ^ d.scale ∧
        a.raw.toNat ≤ (2 ^ 96 - 1) * Wad.one)) ∧
    (∀ payText buyText pay buy, Wad.ofText payText = .ok pay → Wad.ofText buyText = .ok buy →
      0 < pay.raw.toNat → 0 < buy.raw.toNat →
      ∃ price : Wad, price.raw.toNat = pay.raw.toNat * Wad.one / buy.raw.toNat ∧ price ≠ .max ∧
        (∀ terms : Terms, terms.payAmount = pay → terms.buyAmount = buy →
          terms.price = .ok price) ∧
        ∀ (snapshot : Snapshot) (start : UInt64) (market : Sandbox),
          snapshot.sandbox start = .ok market → ∀ d ∈ snapshot.orders,
          d.payAmount = payText → d.buyAmount = buyText →
          ∃ o, (order Sandbox.ledger snapshot.address d.id ⟨∅, market⟩).1 = .ok (.present o) ∧
            o.payAmount = pay ∧ o.buyAmount = buy ∧ o.sellToBuyPrice = price) ∧
    ∀ words env settings read? start f,
      run words env settings read? start = .error (.failure f) →
        ∃ side, f = .invalidArgument (.zeroAmount side) := by
  refine ⟨fun d => ⟨Wad.ofDecimal?_eq_none_iff, fun hd => ?_⟩, ?_,
    fun _ _ _ _ _ _ => zeroAmount_of_words⟩
  · have hd : ¬ (d.negative = true ∧ d.mantissa ≠ 0) := by
      rintro ⟨hnegative, hmantissa⟩
      rcases hd with hfalse | hzero
      · cases hnegative.symm.trans hfalse
      · exact hmantissa hzero
    obtain ⟨a, ha, hraw⟩ := Wad.ofDecimal?_eq hd
    exact ⟨a, ha, hraw, hraw ▸ Wad.cut_le d⟩
  · intro payText buyText pay buy hpay hbuy hpayPos hbuyPos
    obtain ⟨price, hprice, hquotient⟩ := Wad.exists_div? hbuyPos (Wad.scaled_lt_of_ofText hpay)
    refine ⟨price, hquotient, ?_, ?_, fun snapshot start market hopen d hd => ?_⟩
    · rintro rfl
      exact Wad.div?_ne_max hprice
    · rintro terms rfl rfl
      exact Terms.price_of_div? hpayPos hbuyPos hprice
    · rintro rfl rfl
      obtain ⟨o, ho, hdescribes⟩ := exists_order_of_snapshot hopen hd
      have hpayAmount := Except.ok.inj (hdescribes.payAmount_eq.symm.trans hpay)
      have hbuyAmount := Except.ok.inj (hdescribes.buyAmount_eq.symm.trans hbuy)
      refine ⟨o, ho, hpayAmount, hbuyAmount, ?_⟩
      rw [Order.sellToBuyPrice, hpayAmount, hbuyAmount, hprice, Option.getD_some]

def trialWords : List String :=
  ["--snapshot", "book", "position", "--pay-token", "0x0000000000000000000000000000000000000003",
    "--pay-amount", "1.5", "--buy-token", "0x0000000000000000000000000000000000000004",
    "--buy-amount", "0"]

theorem entered_amounts_priced_of_trial :
    ∃ (pay buy price : Wad) (market : Sandbox) (o : Order) (f : Failure) (side : Side),
      price.raw.toNat = 2 * Wad.one ∧
      Terms.price ⟨.ofNat 20 3, pay, .ofNat 20 4, buy⟩ = .ok price ∧
      Snapshot.trialOrders.sandbox 0 = .ok market ∧
      (order Sandbox.ledger Snapshot.trialOrders.address 7 ⟨∅, market⟩).1 = .ok (.present o) ∧
      o.sellToBuyPrice = price ∧
      run trialWords [] none (fun _ => none) = .error (.failure f) ∧
      f = .invalidArgument (.zeroAmount side) := by
  obtain ⟨_, hpriced, hfails⟩ := entered_amounts_priced
  obtain ⟨market, hopen⟩ := Snapshot.exists_sandbox_iff.mpr Snapshot.sound_trialOrders
  obtain ⟨price, hquotient, _, hterms, hshown⟩ :=
    hpriced "3" "1.5" _ _ rfl rfl (by decide +kernel) (by decide +kernel)
  obtain ⟨o, ho, _, _, hprice⟩ := hshown _ 0 market hopen _ List.mem_cons_self rfl rfl
  obtain ⟨side, hside⟩ := hfails trialWords [] none (fun _ => none) 0 _ rfl
  exact ⟨_, _, price, market, o, _, side, hquotient.trans (by decide +kernel), hterms _ rfl rfl,
    hopen, ho, hprice, rfl, hside⟩

end CommandLine

end Barter
