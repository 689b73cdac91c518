import Barter.Proofs.Event
import Mathlib.Data.Nat.Digits.Defs

namespace Barter

theorem toOption_eq_some_iff {ε α : Type} {x : Except ε α} {a : α} :
    x.toOption = some a ↔ x = .ok a := by
  cases x with
  | error e => simp [Except.toOption]
  | ok found => simp [Except.toOption]

theorem Bytes.natOf_eq_ofDigits (bytes : List UInt8) :
    natOf bytes = Nat.ofDigits 256 (bytes.reverse.map UInt8.toNat) := by
  rw [Nat.ofDigits_eq_foldr, List.foldr_map, List.foldr_reverse, natOf]
  simp only [Nat.cast_id, Nat.mul_comm, Nat.add_comm]

namespace Value

/-- The number that a value is, or that its bytes are with the most significant one first. -/
def toNat? : Value → Option Nat
  | .bytes32 h => some (Nat.ofDigits 256 (h.toList.reverse.map UInt8.toNat))
  | .uint w => some w.toNat
  | .address _ | .bool _ => none

theorem toNat?_bytes32 (h : Hash) : (bytes32 h).toNat? = some h.toNat :=
  congrArg some (Bytes.natOf_eq_ofDigits h.toList).symm

variable {v : Value} {id : OrderId}

theorem isId_iff : v.IsId id ↔ v.toNat? = some id.toNat := by
  constructor
  · intro h
    cases h with
    | bytes hash heq => rw [toNat?_bytes32, heq]
    | number w heq => exact congrArg some heq
  · intro h
    cases v with
    | bytes32 hash =>
        rw [toNat?_bytes32] at h
        exact .bytes hash (Option.some.inj h)
    | uint w => exact .number w (Option.some.inj h)
    | address | bool => cases h

theorem exists_isId_iff : (∃ id, v.IsId id) ↔ ∃ n < 2 ^ 64, v.toNat? = some n := by
  constructor
  · rintro ⟨id, h⟩
    exact ⟨id.toNat, id.toNat_lt, isId_iff.mp h⟩
  · rintro ⟨n, hlt, h⟩
    refine ⟨.ofNat n, isId_iff.mpr ?_⟩
    rw [h, UInt64.toNat_ofNat', Nat.mod_eq_of_lt hlt]

theorem isId_number (id : OrderId) : (number id).IsId id :=
  .number _ rfl

theorem isId_orderId (id : OrderId) : (orderId id).IsId id :=
  .bytes _ (Bytes.toNat_ofNat (Nat.lt_trans id.toNat_lt (by decide)))

theorem isId_iff_eq_orderId (hkind : v.kind = .bytes32) : v.IsId id ↔ v = orderId id := by
  constructor
  · intro h
    cases h with
    | bytes hash heq => rw [orderId, ← heq, Bytes.ofNat_toNat]
    | number => cases hkind
  · rintro rfl
    exact isId_orderId id

end Value

namespace Outputs

variable {o : Outputs} {index : Nat}

theorem get_eq_ok_iff {v : Value} : o.get index = .ok v ↔ o.values[index]? = some v := by
  rw [get]
  cases o.values[index]? with
  | none => simp
  | some found => simp

theorem narrowId_eq_ok_iff {w : Word} {id : OrderId} :
    o.narrowId w = .ok id ↔ w = .ofUInt64 id := by
  rw [← Word.toUInt64?_eq_some_iff, narrowId]
  cases w.toUInt64? with
  | none => simp
  | some found => simp

theorem orderId_eq_ok_iff {id : OrderId} :
    o.orderId index = .ok id ↔ ∃ v, o.values[index]? = some v ∧ v.IsId id := by
  rw [orderId, bind_eq_ok_iff]
  refine exists_congr fun v => and_congr get_eq_ok_iff ⟨fun h => ?_, fun h => ?_⟩
  · cases v with
    | bytes32 hash => exact .bytes hash (congrArg Word.toNat (narrowId_eq_ok_iff.mp h))
    | uint w => exact .number w (congrArg Word.toNat (narrowId_eq_ok_iff.mp h))
    | address | bool => cases h
  · cases h with
    | bytes hash heq => exact narrowId_eq_ok_iff.mpr (Word.ext heq)
    | number w heq => exact narrowId_eq_ok_iff.mpr (Word.ext heq)

end Outputs

/-- Whether a value stands among outputs or in a log, the same id is read of it, or none: it is the
number that the value is, or that its bytes are, where that has 64 bits. -/
theorem ids_read_alike {o : Outputs} {index : Nat} {l : Log} {name : String} {v : Value}
    (ho : o.values[index]? = some v) (hl : l.args[name]? = some v) :
    ∃ read : Option OrderId,
      (o.orderId index).toOption = read ∧ (l.orderId name).toOption = read ∧
      (∀ id, read = some id ↔ v.toNat? = some id.toNat) ∧
      (read.isSome ↔ ∃ n < 2 ^ 64, v.toNat? = some n) ∧
      (∀ id, v = .orderId id → v.kind = .bytes32 ∧ read = some id) ∧
      (∀ id, v = .number id → read = some id) ∧
      (v.kind = .bytes32 → ∀ id, read = some id ↔ v = .orderId id) := by
  have hread (id : OrderId) : (o.orderId index).toOption = some id ↔ v.IsId id := by
    simp only [toOption_eq_some_iff, Outputs.orderId_eq_ok_iff, ho, Option.some.injEq,
      exists_eq_left']
  have hlogged (id : OrderId) : (l.orderId name).toOption = some id ↔ v.IsId id := by
    simp only [toOption_eq_some_iff, Log.orderId_eq_ok_iff, hl, Option.some.injEq,
      exists_eq_left']
  have hsame : (l.orderId name).toOption = (o.orderId index).toOption :=
    Option.ext fun id => (hlogged id).trans (hread id).symm
  refine ⟨(o.orderId index).toOption, rfl, hsame, ?value, ?success, ?orderId, ?number, ?bytes⟩
  case value => exact fun id => (hread id).trans Value.isId_iff
  case success =>
    simp only [Option.isSome_iff_exists, hread]
    exact Value.exists_isId_iff
  case orderId =>
    rintro id rfl
    exact ⟨rfl, (hread id).mpr (Value.isId_orderId id)⟩
  case number =>
    rintro id rfl
    exact (hread id).mpr (Value.isId_number id)
  case bytes => exact fun hkind id => (hread id).trans (Value.isId_iff_eq_orderId hkind)

theorem ids_read_alike_of_trial :
    let fitting : Hash := ((Bytes.zero 30).push 1).push 2
    let large : Hash := (Bytes.zero 23).push 1 ++ Bytes.zero 8
    let outputs : Outputs := ⟨"take", [.bytes32 fitting, .bytes32 large]⟩
    let args : List (String × Value) := [("id", .bytes32 fitting), ("next", .bytes32 large)]
    let log : Log := ⟨.zero, "LogTake", 12, .zero 32, .ofList args⟩
    ((outputs.orderId 0).toOption = some 258 ∧ (log.orderId "id").toOption = some 258) ∧
      (outputs.orderId 1).toOption = none ∧ (log.orderId "next").toOption = none := by
  intro fitting large outputs args log
  constructor
  · have hout : outputs.values[0]? = some (.bytes32 fitting) := rfl
    have hlog : log.args["id"]? = some (.bytes32 fitting) := by decide
    obtain ⟨_, hread, hlogged, hvalue, _⟩ := ids_read_alike hout hlog
    have hid := (hvalue 258).mpr (by decide)
    exact ⟨hread.trans hid, hlogged.trans hid⟩
  · have hout : outputs.values[1]? = some (.bytes32 large) := rfl
    have hlog : log.args["next"]? = some (.bytes32 large) := by decide
    obtain ⟨_, hread, hlogged, _, hsuccess, _⟩ := ids_read_alike hout hlog
    have hnumber : (Value.bytes32 large).toNat? = some (2 ^ 64) := by decide
    have hfails : ¬ ∃ n < 2 ^ 64, (Value.bytes32 large).toNat? = some n := by
      rintro ⟨n, hlt, hn⟩
      obtain rfl := Option.some.inj (hnumber.symm.trans hn)
      exact Nat.lt_irrefl _ hlt
    have hnone := Option.not_isSome_iff_eq_none.mp (mt hsuccess.mp hfails)
    exact ⟨hread.trans hnone, hlogged.trans hnone⟩

end Barter
