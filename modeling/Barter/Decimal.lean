import Barter.Wad

namespace Barter

def Decimal.limit : Nat :=
  0x1_00000000_00000000_00000000

/-- The number `± mantissa / 10 ^ scale`. -/
structure Decimal where
  negative : Bool
  mantissa : Nat
  scale : Nat
  mantissa_lt : mantissa < Decimal.limit
  scale_le : scale ≤ 28
deriving DecidableEq

namespace Decimal

def unit (scale : Nat) : Nat :=
  Nat.pow 10 scale

def mk? (negative : Bool) (mantissa scale : Nat) : Option Decimal :=
  if h : mantissa < limit ∧ scale ≤ 28 then some ⟨negative, mantissa, scale, h.1, h.2⟩ else none

def text (d : Decimal) : String :=
  let sign := if d.negative then "-" else ""
  let whole := d.mantissa / unit d.scale
  if d.scale = 0 then s!"{sign}{whole}"
  else s!"{sign}{whole}.{Text.padded d.scale (d.mantissa % unit d.scale)}"

end Decimal

namespace Wad

/-- The amount of a decimal, cut off after eighteen decimals. A negative number has none, not even
one that would be cut off to zero. -/
def ofDecimal? (d : Decimal) : Option Wad :=
  if d.negative ∧ d.mantissa ≠ 0 then none
  else
    let units :=
      if d.scale ≤ 18 then d.mantissa * Decimal.unit (18 - d.scale)
      else d.mantissa / Decimal.unit (d.scale - 18)
    (Word.ofNat? units).map Wad.mk

def toDecimal? (a : Wad) : Option Decimal :=
  Decimal.mk? false a.raw.toNat 18

end Wad

end Barter
