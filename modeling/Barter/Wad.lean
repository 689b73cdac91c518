import Barter.Word

namespace Barter

inductive Trap where
  | amountByZero
  | fillByZero
deriving DecidableEq

def Trap.message : Trap → String
  | .amountByZero => "attempt to divide Wad by zero"
  | .fillByZero => "attempt to divide by zero"

/-- A token amount or a price with eighteen decimals: `raw` counts units of `10⁻¹⁸`. -/
structure Wad where
  raw : Word
deriving DecidableEq

namespace Wad

@[ext]
theorem ext {a b : Wad} (h : a.raw = b.raw) : a = b := by
  cases a
  cases b
  simp_all

instance : Ord Wad :=
  ⟨compareOn raw⟩

instance : LE Wad :=
  ⟨fun a b => a.raw ≤ b.raw⟩

instance : LT Wad :=
  ⟨fun a b => a.raw < b.raw⟩

instance (a b : Wad) : Decidable (a ≤ b) :=
  inferInstanceAs (Decidable (a.raw ≤ b.raw))

instance (a b : Wad) : Decidable (a < b) :=
  inferInstanceAs (Decidable (a.raw < b.raw))

def one : Nat := 1_000_000_000_000_000_000

def zero : Wad :=
  ⟨.zero⟩

def max : Wad :=
  ⟨.max⟩

def ofNumber (n : UInt64) : Wad :=
  ⟨n.toNat * one, by have := n.toNat_lt; simp only [one, Word.size]; omega⟩

def isZero (a : Wad) : Bool :=
  a.raw.isZero

theorem isZero_iff {a : Wad} : a.isZero = true ↔ a.raw.toNat = 0 :=
  Word.isZero_iff

theorem isZero_eq_false_iff {a : Wad} : a.isZero = false ↔ 0 < a.raw.toNat := by
  rw [Bool.eq_false_iff, Ne, isZero_iff, Nat.pos_iff_ne_zero]

/-- The quotient rounded down, unless the divisor is zero or the scaled dividend exceeds a word. -/
def div? (a b : Wad) : Option Wad :=
  if b.isZero then none
  else (Word.ofNat? (a.raw.toNat * one)).map fun scaled => ⟨scaled.quotient b.raw.toNat⟩

theorem div?_eq_some_iff {a b q : Wad} :
    a.div? b = some q ↔ b.raw.toNat ≠ 0 ∧ a.raw.toNat * one < Word.size ∧
      q.raw.toNat = a.raw.toNat * one / b.raw.toNat := by
  by_cases hb : b.raw.toNat = 0
  · rw [div?, if_pos (isZero_iff.mpr hb)]
    exact ⟨nofun, fun h => absurd hb h.1⟩
  · have hz : ¬ b.isZero = true := fun h => hb (isZero_iff.mp h)
    rw [div?, if_neg hz, Option.map_eq_some_iff]
    constructor
    · rintro ⟨scaled, hs, rfl⟩
      have hs := Word.ofNat?_eq_some_iff.mp hs
      refine ⟨hb, ?_, ?_⟩
      · rw [hs]
        exact scaled.toNat_lt
      · rw [hs]
        rfl
    · rintro ⟨_, hlt, hq⟩
      exact ⟨⟨_, hlt⟩, Word.ofNat?_eq_some_iff.mpr rfl, Wad.ext (Word.ext hq.symm)⟩

def mul? (a b : Wad) : Option Wad :=
  (Word.ofNat? (a.raw.toNat * b.raw.toNat)).map fun product => ⟨product.quotient one⟩

theorem mul?_eq_some_iff {a b p : Wad} :
    a.mul? b = some p ↔ a.raw.toNat * b.raw.toNat < Word.size ∧
      p.raw.toNat = a.raw.toNat * b.raw.toNat / one := by
  rw [mul?, Option.map_eq_some_iff]
  constructor
  · rintro ⟨product, hp, rfl⟩
    have hp := Word.ofNat?_eq_some_iff.mp hp
    refine ⟨?_, ?_⟩
    · rw [hp]
      exact product.toNat_lt
    · rw [hp]
      rfl
  · rintro ⟨hlt, hp⟩
    exact ⟨⟨_, hlt⟩, Word.ofNat?_eq_some_iff.mpr rfl, Wad.ext (Word.ext hp.symm)⟩

def sub? (a b : Wad) : Option Wad :=
  (a.raw.sub? b.raw).map Wad.mk

def div (a b : Wad) : Except Trap Wad :=
  if b.isZero then .error .amountByZero else .ok ((a.div? b).getD max)

def mul (a b : Wad) : Wad :=
  (a.mul? b).getD max

def add (a b : Wad) : Wad :=
  ⟨.saturating (a.raw.toNat + b.raw.toNat)⟩

def minus (a b : Wad) : Wad :=
  ⟨a.raw.minus b.raw⟩

instance : Mul Wad :=
  ⟨mul⟩

instance : Add Wad :=
  ⟨add⟩

instance : Sub Wad :=
  ⟨minus⟩

def text (a : Wad) : String :=
  s!"{a.raw.toNat / one}.{Text.padded 18 (a.raw.toNat % one)}"

end Wad

end Barter
