import Barter.Bytes

namespace Barter

def Word.size : Nat :=
  0x1_0000000000000000_0000000000000000_0000000000000000_0000000000000000

structure Word where
  toNat : Nat
  toNat_lt : toNat < Word.size
deriving DecidableEq

namespace Word

@[ext]
theorem ext {v w : Word} (h : v.toNat = w.toNat) : v = w := by
  cases v
  cases w
  simp_all

instance : Ord Word :=
  ⟨compareOn toNat⟩

instance : LE Word :=
  ⟨fun v w => v.toNat ≤ w.toNat⟩

instance : LT Word :=
  ⟨fun v w => v.toNat < w.toNat⟩

instance (v w : Word) : Decidable (v ≤ w) :=
  inferInstanceAs (Decidable (v.toNat ≤ w.toNat))

instance (v w : Word) : Decidable (v < w) :=
  inferInstanceAs (Decidable (v.toNat < w.toNat))

def zero : Word :=
  ⟨0, by decide⟩

def max : Word :=
  ⟨size - 1, by decide⟩

def ofNat? (n : Nat) : Option Word :=
  if h : n < size then some ⟨n, h⟩ else none

theorem ofNat?_eq_some_iff {n : Nat} {w : Word} : ofNat? n = some w ↔ n = w.toNat := by
  unfold ofNat?
  split
  · simp [Word.ext_iff]
  · have := w.toNat_lt
    simp
    omega

theorem ofNat?_eq_none_iff {n : Nat} : ofNat? n = none ↔ size ≤ n := by
  simp [ofNat?]

def saturating (n : Nat) : Word :=
  (ofNat? n).getD max

def ofUInt64 (n : UInt64) : Word :=
  ⟨n.toNat, Nat.lt_trans n.toNat_lt (by decide)⟩

def toUInt64? (w : Word) : Option UInt64 :=
  if w.toNat < UInt64.size then some (UInt64.ofNat w.toNat) else none

theorem toUInt64?_ofUInt64 (n : UInt64) : (ofUInt64 n).toUInt64? = some n := by
  have h := n.toNat_lt
  simp [toUInt64?, ofUInt64, h]

theorem toUInt64?_eq_some_iff {w : Word} {n : UInt64} :
    w.toUInt64? = some n ↔ w = ofUInt64 n := by
  constructor
  · intro h
    simp only [toUInt64?, Option.ite_none_right_eq_some, Option.some.injEq] at h
    obtain ⟨hw, rfl⟩ := h
    exact Word.ext (Nat.mod_eq_of_lt hw).symm
  · rintro rfl
    exact toUInt64?_ofUInt64 n

def isZero (w : Word) : Bool :=
  w.toNat == 0

theorem isZero_iff {w : Word} : w.isZero = true ↔ w.toNat = 0 :=
  beq_iff_eq

def quotient (w : Word) (n : Nat) : Word :=
  ⟨w.toNat / n, Nat.lt_of_le_of_lt (Nat.div_le_self _ _) w.toNat_lt⟩

def sub? (v w : Word) : Option Word :=
  if w ≤ v then some ⟨v.toNat - w.toNat, Nat.lt_of_le_of_lt (Nat.sub_le _ _) v.toNat_lt⟩ else none

def minus (v w : Word) : Word :=
  ⟨v.toNat - w.toNat, Nat.lt_of_le_of_lt (Nat.sub_le _ _) v.toNat_lt⟩

def ofBytes (b : Bytes 32) : Word :=
  ⟨b.toNat, Nat.lt_of_lt_of_eq b.toNat_lt (by decide)⟩

theorem ofBytes_ofNat (n : UInt64) : ofBytes (Bytes.ofNat 32 n.toNat) = ofUInt64 n :=
  Word.ext (Bytes.toNat_ofNat (Nat.lt_trans n.toNat_lt (by decide)))

def hex (w : Word) : String :=
  "0x" ++ String.ofList (Nat.toDigits 16 w.toNat)

end Word

end Barter
