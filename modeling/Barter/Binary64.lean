import Barter.Text

namespace Barter

/-- A floating point number of 64 bits, not a number (NaN) excepted. The larger `bits` are, the
larger is its magnitude. -/
structure Binary64 where
  negative : Bool
  bits : Nat
deriving DecidableEq

namespace Binary64

def infinite : Nat :=
  0x7ff0000000000000

def implicit : Nat :=
  0x10000000000000

def units (bits : Nat) : Nat :=
  let exponent := bits / implicit
  let fraction := bits % implicit
  if exponent = 0 then fraction else (fraction + implicit) <<< (exponent - 1)

def unitExponent : Nat :=
  1074

def floor (n : Nat) : Nat :=
  let shift := n.log2 - 52
  shift * implicit + n >>> shift

def nearest (dividend divisor : Nat) : Nat :=
  let scaled := dividend <<< unitExponent
  let low := floor (scaled / divisor)
  if infinite ≤ low then infinite
  else
    match compare (2 * scaled) ((units low + units (low + 1)) * divisor) with
    | .lt => low
    | .eq => if low % 2 = 0 then low else low + 1
    | .gt => low + 1

/-- The magnitude nearest to `digits` times a power of ten. What has more than four hundred places
before the point, or zeros behind it, is out of range for certain. -/
def ofDecimal (digits : Nat) (exponent : Int) : Nat :=
  let top := (Nat.toDigits 10 digits).length + exponent
  if digits = 0 || top < -400 then 0
  else if 400 < top then infinite
  else nearest (digits * Nat.pow 10 exponent.toNat) (Nat.pow 10 (-exponent).toNat)

def ordinal (x : Binary64) : Int :=
  if x.negative then -(x.bits : Int) else x.bits

def atPlace? (bits : Nat) (place : Int) : Option Nat :=
  let up := Nat.pow 10 (-place).toNat
  let step := Nat.pow 10 place.toNat <<< (unitExponent + 1)
  let low := (units (bits - 1) + units bits) * up
  let middle := 2 * units bits * up
  let high := (units bits + units (bits + 1)) * up
  let readsBack := fun n =>
    if bits % 2 = 0 then low ≤ n * step && n * step ≤ high else low < n * step && n * step < high
  let n := middle / step
  match readsBack n, readsBack (n + 1) with
  | true, true => some (if middle - n * step < (n + 1) * step - middle then n else n + 1)
  | true, false => some n
  | false, true => some (n + 1)
  | false, false => none

/-- The fewest digits that read back as a finite positive magnitude, with their power of ten; the
search goes from the largest power of ten to the smallest one that can be needed. -/
def shortest (bits : Nat) : Nat × Int :=
  let search := fun i : Nat =>
    let place := 309 - (i : Int)
    (atPlace? bits place).map fun digits => (digits, place)
  ((List.range 660).findSome? search).getD (units bits * Nat.pow 5 unitExponent, -unitExponent)

def positional (digits : Nat) (exponent : Int) : List Char :=
  let ds := Nat.toDigits 10 digits ++ List.replicate exponent.toNat '0'
  let places := (-exponent).toNat
  if places = 0 then ds
  else
    let ds := ds.leftpad (places + 1) '0'
    ds.take (ds.length - places) ++ '.' :: ds.drop (ds.length - places)

def magnitudeText (bits : Nat) : List Char :=
  if infinite ≤ bits then "inf".toList
  else if bits = 0 then ['0']
  else
    let (digits, exponent) := shortest bits
    positional digits exponent

def text (x : Binary64) : String :=
  String.ofList ((if x.negative then ['-'] else []) ++ magnitudeText x.bits)

end Binary64

end Barter
