import Barter.Bytes

namespace Barter.Keccak

/-- The 1600 bits of the permutation: lane `(x, y)` stands at `x + 5 * y`. -/
abbrev State := Vector UInt64 25

def lane (a : State) (x y : Nat) : UInt64 :=
  have : x % 5 + 5 * (y % 5) < 25 := by omega
  a[x % 5 + 5 * (y % 5)]

def tabulate (f : Nat → Nat → UInt64) : State :=
  Vector.ofFn fun i => f (i.val % 5) (i.val / 5)

def rotate (w : UInt64) (k : UInt64) : UInt64 :=
  w <<< k ||| w >>> (64 - k)

def offsets : State :=
  #v[0, 1, 62, 28, 27,
    36, 44, 6, 55, 20,
    3, 10, 43, 25, 39,
    41, 45, 15, 21, 8,
    18, 2, 61, 56, 14]

def roundConstants : List UInt64 :=
  [0x0000000000000001, 0x0000000000008082, 0x800000000000808a, 0x8000000080008000,
    0x000000000000808b, 0x0000000080000001, 0x8000000080008081, 0x8000000000008009,
    0x000000000000008a, 0x0000000000000088, 0x0000000080008009, 0x000000008000000a,
    0x000000008000808b, 0x800000000000008b, 0x8000000000008089, 0x8000000000008003,
    0x8000000000008002, 0x8000000000000080, 0x000000000000800a, 0x800000008000000a,
    0x8000000080008081, 0x8000000000008080, 0x0000000080000001, 0x8000000080008008]

def mixColumns (a : State) : State :=
  let column : Vector UInt64 5 := Vector.ofFn fun x =>
    lane a x.val 0 ^^^ lane a x.val 1 ^^^ lane a x.val 2 ^^^ lane a x.val 3 ^^^ lane a x.val 4
  let parity := fun x : Nat =>
    have : x % 5 < 5 := by omega
    column[x % 5]
  tabulate fun x y => lane a x y ^^^ parity (x + 4) ^^^ rotate (parity (x + 1)) 1

def scatter (a : State) : State :=
  tabulate fun x y => rotate (lane a (x + 3 * y) x) (lane offsets (x + 3 * y) x)

def combineRows (a : State) : State :=
  tabulate fun x y => lane a x y ^^^ (~~~ lane a (x + 1) y &&& lane a (x + 2) y)

def round (a : State) (constant : UInt64) : State :=
  let b := combineRows (scatter (mixColumns a))
  b.set 0 (lane b 0 0 ^^^ constant)

def permute (a : State) : State :=
  roundConstants.foldl round a

def rate : Nat := 136

def wordAt (block : List UInt8) (i : Nat) : UInt64 :=
  ((block.drop (8 * i)).take 8).foldr (fun b w => w <<< 8 ||| b.toUInt64) 0

def absorb (a : State) (block : List UInt8) : State :=
  permute (tabulate fun x y => lane a x y ^^^ wordAt block (x + 5 * y))

def pad (message : List UInt8) : List UInt8 :=
  let free := rate - message.length % rate
  if free = 1 then message ++ [0x81]
  else message ++ 0x01 :: List.replicate (free - 2) 0 ++ [0x80]

def blocks (message : List UInt8) : List (List UInt8) :=
  (List.range (message.length / rate + 1)).map fun i => ((pad message).drop (rate * i)).take rate

def byteOf (a : State) (i : Nat) : UInt8 :=
  (lane a (i / 8 % 5) (i / 40) >>> UInt64.ofNat (8 * (i % 8))).toUInt8

def hash (message : List UInt8) : Hash :=
  let a := (blocks message).foldl absorb (Vector.replicate 25 0)
  Vector.ofFn fun i => byteOf a i.val

end Barter.Keccak
