import Barter.Command

namespace Barter

def IsReading {α : Type} (x : Except Fault α) : Prop :=
  ∀ e, x = .error e → ∃ cause, e = .decode cause

namespace IsReading

variable {α β : Type}

theorem ok (a : α) : IsReading (.ok a) :=
  nofun

theorem error (cause : DecodeFault) : IsReading (.error (.decode cause) : Except Fault α) := by
  rintro e ⟨⟩
  exact ⟨cause, rfl⟩

theorem bind {x : Except Fault α} {f : α → Except Fault β} (hx : IsReading x)
    (hf : ∀ a, IsReading (f a)) : IsReading (x >>= f) := by
  cases x with
  | error e =>
      obtain ⟨cause, rfl⟩ := hx e rfl
      exact error cause
  | ok a => exact hf a

theorem map {x : Except Fault α} (hx : IsReading x) (f : α → β) : IsReading (f <$> x) := by
  cases x with
  | error e =>
      obtain ⟨cause, rfl⟩ := hx e rfl
      exact error cause
  | ok a => exact ok (f a)

end IsReading

theorem map_eq_ok_iff {ε α β : Type} {x : Except ε α} {f : α → β} {b : β} :
    f <$> x = .ok b ↔ ∃ a, x = .ok a ∧ f a = b := by
  cases x with
  | error e => simp [Functor.map, Except.map]
  | ok a => simp [Functor.map, Except.map]

namespace Outputs

theorem ifHas_eq_ok_iff {α : Type} {o : Outputs} {has : Bool} {x : Except Fault α} {a : α} :
    o.ifHas has x = .ok a ↔ has = true ∧ x = .ok a := by
  cases has <;> simp [ifHas]

theorem isReading_get (o : Outputs) (index : Nat) : IsReading (o.get index) := by
  unfold get
  split
  · exact .ok _
  · exact .error _

theorem isReading_address (o : Outputs) (index : Nat) : IsReading (o.address index) := by
  refine (o.isReading_get index).bind fun v => ?_
  split
  · exact .ok _
  · exact .error _

theorem isReading_uint (o : Outputs) (index : Nat) : IsReading (o.uint index) := by
  refine (o.isReading_get index).bind fun v => ?_
  split
  · exact .ok _
  · exact .error _

theorem isReading_amount (o : Outputs) (index : Nat) : IsReading (o.amount index) :=
  (o.isReading_uint index).bind fun _ => .ok _

theorem isReading_bool (o : Outputs) (index : Nat) : IsReading (o.bool index) := by
  refine (o.isReading_get index).bind fun v => ?_
  split
  · exact .ok _
  · exact .error _

theorem isReading_number (o : Outputs) (index : Nat) : IsReading (o.number index) := by
  refine (o.isReading_uint index).bind fun w => ?_
  split
  · exact .ok _
  · exact .error _

theorem isReading_narrowId (o : Outputs) (w : Word) : IsReading (o.narrowId w) := by
  unfold narrowId
  split
  · exact .ok _
  · exact .error _

theorem isReading_orderId (o : Outputs) (index : Nat) : IsReading (o.orderId index) := by
  refine (o.isReading_get index).bind fun v => ?_
  split
  · exact o.isReading_narrowId _
  · exact o.isReading_narrowId _
  · exact .error _

end Outputs

theorem Terms.check_eq_ok_iff {t : Terms} :
    t.check = .ok () ↔ 0 < t.payAmount.raw.toNat ∧ 0 < t.buyAmount.raw.toNat := by
  rw [← Wad.isZero_eq_false_iff, ← Wad.isZero_eq_false_iff, Terms.check]
  cases t.payAmount.isZero with
  | true => simp
  | false => cases t.buyAmount.isZero <;> simp

def MarketKind.HasMethod (kind : MarketKind) (method : String) : Prop :=
  ∃ c : Command, c.isFor kind = true ∧ c.method = method

namespace Command

/-- How a market reads a call: the method is not one of its own, or it is, and only the arguments
can fail it. -/
inductive Reads (kind : MarketKind) (method : String) : Except Fault Command → Prop
  | unknown (h : ¬ kind.HasMethod method) : Reads kind method (.error (.unknownMethod method))
  | garbled (h : kind.HasMethod method) (cause : DecodeFault) :
      Reads kind method (.error (.decode cause))
  | known (c : Command) (h : kind.HasMethod method) : Reads kind method (.ok c)

theorem isReading_readMake (o : Outputs) : IsReading (readMake o) :=
  (o.isReading_address 0).bind fun _ =>
    (o.isReading_address 1).bind fun _ =>
      (o.isReading_amount 2).bind fun _ => (o.isReading_amount 3).bind fun _ => .ok _

theorem isReading_readOffer (o : Outputs) : IsReading (readOffer o) :=
  (o.isReading_amount 0).bind fun _ =>
    (o.isReading_address 1).bind fun _ =>
      (o.isReading_amount 2).bind fun _ =>
        (o.isReading_address 3).bind fun _ => (o.isReading_number 4).bind fun _ => .ok _

theorem isFor_eq_of_method_eq {c d : Command} (h : c.method = d.method) (kind : MarketKind) :
    c.isFor kind = d.isFor kind := by
  cases c <;> cases d <;> simp_all [method, isFor]

/-- A market that has the command `c` has its method, and reads the arguments of any call of it. -/
theorem reads_command {kind : MarketKind} (c : Command) (args : List Value)
    {x : Except Fault Command} (hx : IsReading x) :
    Reads kind c.method (Outputs.ifHas ⟨c.method, args⟩ (c.isFor kind) x) := by
  cases hfor : c.isFor kind with
  | true =>
      have hhas : kind.HasMethod c.method := ⟨c, hfor, rfl⟩
      rw [Outputs.ifHas_eq rfl]
      cases x with
      | ok d => exact .known d hhas
      | error e =>
          obtain ⟨cause, rfl⟩ := hx e rfl
          exact .garbled hhas cause
  | false =>
      refine .unknown ?_
      rintro ⟨d, hd, hmethod⟩
      rw [isFor_eq_of_method_eq hmethod, hfor] at hd
      cases hd

theorem ofCall_reads (kind : MarketKind) (method : String) (args : List Value) :
    Reads kind method (ofCall kind method args) := by
  have hid (o : Outputs) := o.isReading_orderId 0
  have hbool (o : Outputs) := o.isReading_bool 0
  have haddress (o : Outputs) := o.isReading_address
  unfold ofCall
  split
  · exact reads_command (.make ⟨.zero, .zero, .zero, .zero⟩) args (isReading_readMake _)
  · exact reads_command (.offer ⟨.zero, .zero, .zero, .zero⟩ 0) args (isReading_readOffer _)
  · exact reads_command (.bump 0) args ((hid _).map _)
  · exact reads_command (.take 0 .zero) args
      ((hid _).bind fun _ => (Outputs.isReading_amount _ 1).bind fun _ => .ok _)
  · exact reads_command (.kill 0) args ((hid _).map _)
  · exact reads_command (.setBuyEnabled true) args ((hbool _).map _)
  · exact reads_command (.setMatchingEnabled true) args ((hbool _).map _)
  · exact reads_command (.whitelist ⟨.zero, .zero⟩) args
      ((haddress _ 0).bind fun _ => (haddress _ 1).bind fun _ => .ok _)
  next hmake hoffer hbump htake hkill hbuy hmatching hwhitelist =>
    refine .unknown ?_
    rintro ⟨c, _, rfl⟩
    cases c with
    | make => exact hmake rfl
    | offer => exact hoffer rfl
    | bump => exact hbump rfl
    | take => exact htake rfl
    | kill => exact hkill rfl
    | setBuyEnabled => exact hbuy rfl
    | setMatchingEnabled => exact hmatching rfl
    | whitelist => exact hwhitelist rfl

/-- A market reads no call as a command that its kind does not have. -/
theorem isFor_of_ofCall {kind : MarketKind} {method : String} {args : List Value} {c : Command}
    (h : ofCall kind method args = .ok c) : c.isFor kind = true := by
  unfold ofCall at h
  split at h
  · simp only [readMake, bind_eq_ok_iff, pure, Except.pure, Except.ok.injEq] at h
    obtain ⟨_, _, _, _, _, _, _, _, rfl⟩ := h
    rfl
  · obtain ⟨hkind, h⟩ := Outputs.ifHas_eq_ok_iff.mp h
    simp only [readOffer, bind_eq_ok_iff, pure, Except.pure, Except.ok.injEq] at h
    obtain ⟨_, _, _, _, _, _, _, _, _, _, rfl⟩ := h
    exact hkind
  · obtain ⟨_, _, rfl⟩ := map_eq_ok_iff.mp h
    rfl
  · simp only [bind_eq_ok_iff, pure, Except.pure, Except.ok.injEq] at h
    obtain ⟨_, _, _, _, rfl⟩ := h
    rfl
  · obtain ⟨_, _, rfl⟩ := map_eq_ok_iff.mp h
    rfl
  · obtain ⟨hkind, h⟩ := Outputs.ifHas_eq_ok_iff.mp h
    obtain ⟨_, _, rfl⟩ := map_eq_ok_iff.mp h
    exact hkind
  · obtain ⟨hkind, h⟩ := Outputs.ifHas_eq_ok_iff.mp h
    obtain ⟨_, _, rfl⟩ := map_eq_ok_iff.mp h
    exact hkind
  · obtain ⟨hkind, h⟩ := Outputs.ifHas_eq_ok_iff.mp h
    simp only [bind_eq_ok_iff, pure, Except.pure, Except.ok.injEq] at h
    obtain ⟨_, _, _, _, rfl⟩ := h
    exact hkind
  · cases h

end Command

theorem Query.method_of_ofCall {kind : MarketKind} {method : String} {args : List Value}
    {q : Query} (h : ofCall kind method args = .ok q) :
    q.method = method ∧ q.isFor kind = true := by
  unfold ofCall at h
  split at h
  · cases h
    exact ⟨rfl, rfl⟩
  · obtain ⟨_, _, rfl⟩ := map_eq_ok_iff.mp h
    exact ⟨rfl, rfl⟩
  · obtain ⟨hkind, ⟨⟩⟩ := Outputs.ifHas_eq_ok_iff.mp h
    exact ⟨rfl, hkind⟩
  · obtain ⟨hkind, ⟨⟩⟩ := Outputs.ifHas_eq_ok_iff.mp h
    exact ⟨rfl, hkind⟩
  · obtain ⟨hkind, ⟨⟩⟩ := Outputs.ifHas_eq_ok_iff.mp h
    exact ⟨rfl, hkind⟩
  · obtain ⟨hkind, ⟨⟩⟩ := Outputs.ifHas_eq_ok_iff.mp h
    exact ⟨rfl, hkind⟩
  · cases h

end Barter
