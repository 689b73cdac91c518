import Barter.Contract.Fault

namespace Barter

theorem bind_eq_ok_iff {ε α β : Type} {x : Except ε α} {f : α → Except ε β} {b : β} :
    x >>= f = .ok b ↔ ∃ a, x = .ok a ∧ f a = .ok b := by
  cases x with
  | error e => simp [bind, Except.bind]
  | ok a => simp [bind, Except.bind]

theorem bind_eq_error_iff {ε α β : Type} {x : Except ε α} {f : α → Except ε β} {e : ε} :
    x >>= f = .error e ↔ x = .error e ∨ ∃ a, x = .ok a ∧ f a = .error e := by
  cases x with
  | error e => simp [bind, Except.bind]
  | ok a => simp [bind, Except.bind]

theorem mapError_eq_ok_iff {ε ε' α : Type} {x : Except ε α} {f : ε → ε'} {a : α} :
    x.mapError f = .ok a ↔ x = .ok a := by
  cases x with
  | error e => exact iff_of_false nofun nofun
  | ok found =>
      constructor
      · intro h
        exact congrArg Except.ok (Except.ok.inj h)
      · rintro ⟨⟩
        rfl

theorem mapError_eq_error_iff {ε ε' α : Type} {x : Except ε α} {f : ε → ε'} {e' : ε'} :
    x.mapError f = .error e' ↔ ∃ e, x = .error e ∧ f e = e' := by
  cases x with
  | error e =>
      constructor
      · intro h
        exact ⟨e, rfl, Except.error.inj h⟩
      · rintro ⟨_, ⟨⟩, rfl⟩
        rfl
  | ok a => exact iff_of_false nofun nofun

structure Outputs where
  method : String
  values : List Value

namespace Outputs

def get (o : Outputs) (index : Nat) : Except Fault Value :=
  match o.values[index]? with
  | some v => .ok v
  | none => .error (.decode (.missing o.method index o.values.length))

def mistyped (o : Outputs) (index : Nat) (expected : ValueKind) (found : Value) : Fault :=
  .decode (.mistyped o.method index expected found.kind)

def address (o : Outputs) (index : Nat) : Except Fault Address := do
  match ← o.get index with
  | .address a => .ok a
  | v => .error (o.mistyped index .address v)

def uint (o : Outputs) (index : Nat) : Except Fault Word := do
  match ← o.get index with
  | .uint w => .ok w
  | v => .error (o.mistyped index .uint v)

def amount (o : Outputs) (index : Nat) : Except Fault Wad :=
  return ⟨← o.uint index⟩

def bool (o : Outputs) (index : Nat) : Except Fault Bool := do
  match ← o.get index with
  | .bool b => .ok b
  | v => .error (o.mistyped index .bool v)

def number (o : Outputs) (index : Nat) : Except Fault UInt64 := do
  let w ← o.uint index
  match w.toUInt64? with
  | some n => .ok n
  | none => .error (.decode (.tooLarge o.method index w))

def narrowId (o : Outputs) (w : Word) : Except Fault OrderId :=
  match w.toUInt64? with
  | some id => .ok id
  | none => .error (.decode (.idTooLarge o.method w))

/-- Order ids come as 32 bytes, the form that contracts use, or as a number. -/
def orderId (o : Outputs) (index : Nat) : Except Fault OrderId := do
  match ← o.get index with
  | .bytes32 h => o.narrowId (.ofBytes h)
  | .uint w => o.narrowId w
  | v => .error (o.mistyped index .bytes32 v)

/-- What comes of a method that the contract may lack. -/
def ifHas {α : Type} (o : Outputs) (has : Bool) (result : Except Fault α) : Except Fault α :=
  if has then result else .error (.unknownMethod o.method)

theorem ifHas_eq {α : Type} {o : Outputs} {has : Bool} (h : has = true) (result : Except Fault α) :
    o.ifHas has result = result :=
  if_pos h

theorem narrowId_ofUInt64 (o : Outputs) (id : OrderId) : o.narrowId (.ofUInt64 id) = .ok id := by
  rw [narrowId, Word.toUInt64?_ofUInt64]

theorem orderId_of_get (o : Outputs) (index : Nat) (id : OrderId)
    (h : o.get index = .ok (.orderId id)) : o.orderId index = .ok id := by
  rw [orderId, h]
  exact (congrArg o.narrowId (Word.ofBytes_ofNat id)).trans (o.narrowId_ofUInt64 id)

theorem number_of_get (o : Outputs) (index : Nat) (n : UInt64)
    (h : o.get index = .ok (.number n)) : o.number index = .ok n := by
  have hu : o.uint index = .ok (.ofUInt64 n) := by rw [uint, h]; rfl
  rw [number, hu]
  simp [bind, Except.bind, Word.toUInt64?_ofUInt64]

end Outputs

end Barter
