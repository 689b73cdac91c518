import Barter.Decimal

namespace Barter.Decimal

structure Reading where
  mantissa : Nat
  scale : Nat
deriving DecidableEq

namespace Reading

def push (r : Reading) (digit : Nat) (point : Bool) : Reading :=
  ⟨r.mantissa * 10 + digit, if point then r.scale + 1 else r.scale⟩

end Reading

def digitOrGap? (c : Char) : Option Nat :=
  if c = '_' then some 0 else Text.digit? 10 c

/-- The number is full: its next digit `c` rounds it, half up, and the digits after that are
dropped. -/
def roundOff (r : Reading) (c : Char) (rest : List Char) : Option Reading := do
  let d ← digitOrGap? c
  let up := if 5 ≤ d then r.mantissa + 1 else r.mantissa
  let rounded ←
    if up < limit then some ⟨up, r.scale⟩
    else if r.scale = 0 then none
    else some ⟨(up + 4) / 10, r.scale - 1⟩
  if rest.all fun c => (digitOrGap? c).isSome then some rounded else none

def readWide (r : Reading) (point : Bool) : List Char → Option Reading
  | [] => some r
  | c :: rest =>
      match Text.digit? 10 c with
      | some d =>
          let next := r.push d point
          if limit ≤ next.mantissa then
            if point then roundOff r c rest else none
          else if point ∧ 28 ≤ next.scale then
            match rest.dropWhile (· = '_') with
            | [] => some next
            | c :: rest => roundOff next c rest
          else readWide next point rest
      | none =>
          if c = '.' ∧ point = false then readWide r true rest
          else if c = '_' then readWide r point rest
          else none

/-- From this mantissa on the next digit may lead beyond 64 bits. -/
def narrowLimit : Nat := 1844674407370954906

def readNarrow (long : Bool) (r : Reading) (point seen : Bool) : List Char → Option Reading
  | [] => if seen then some r else none
  | c :: rest =>
      match Text.digit? 10 c with
      | some d =>
          let next := r.push d point
          match long, rest with
          | true, b :: after =>
              if point ∧ 28 ≤ next.scale then roundOff next b after
              else if narrowLimit ≤ next.mantissa then readWide next point rest
              else readNarrow long next point true rest
          | _, _ => readNarrow long next point true rest
      | none =>
          if c = '.' ∧ point = false then readNarrow long r true seen rest
          else if c = '_' ∧ seen = true then readNarrow long r point seen rest
          else none

def sign : List Char → Bool × List Char
  | '-' :: rest => (true, rest)
  | '+' :: rest => (false, rest)
  | cs => (false, cs)

def ofPlain? (cs : List Char) : Option Decimal := do
  let (negative, digits) := sign cs
  let r ← readNarrow (18 ≤ cs.length) ⟨0, 0⟩ false false digits
  Decimal.mk? negative r.mantissa r.scale

def exponent? : List Char → Option Nat
  | '+' :: rest => Text.natural? rest
  | cs => Text.natural? cs

/-- Divides by `10 ^ n`. Where that needs more than 28 decimals, those beyond are rounded first,
half away from zero. -/
def shiftDown? (d : Decimal) (n : Nat) : Option Decimal :=
  if 28 < n then none
  else if d.scale + n ≤ 28 then Decimal.mk? d.negative d.mantissa (d.scale + n)
  else
    let dropped := unit (d.scale + n - 28)
    Decimal.mk? d.negative ((d.mantissa + dropped / 2) / dropped) 28

def shiftUp? (d : Decimal) (n : Nat) : Option Decimal :=
  if n ≤ d.scale then Decimal.mk? d.negative d.mantissa (d.scale - n)
  else if 28 < n then none
  else Decimal.mk? d.negative (d.mantissa * unit (n - d.scale)) 0

def ofScientific? (cs : List Char) : Option Decimal := do
  let isMark := fun c : Char => c = 'e' || c = 'E'
  let d ← ofPlain? (cs.takeWhile fun c => !isMark c)
  match cs.dropWhile fun c => !isMark c with
  | [] => none
  | _ :: '-' :: digits => d.shiftDown? (← exponent? digits)
  | _ :: digits => d.shiftUp? (← exponent? digits)

def ofChars? (cs : List Char) : Option Decimal :=
  (ofPlain? cs).or (ofScientific? cs)

end Decimal

namespace Wad

inductive ReadError where
  | invalid (text : String)
  | outOfRange (text : String)
deriving DecidableEq

def ReadError.message : ReadError → String
  | .invalid text => s!"invalid decimal '{text}'"
  | .outOfRange text => s!"negative or out-of-range amount '{text}'"

def ofText (text : String) : Except ReadError Wad :=
  match Decimal.ofChars? (Text.trim text.toList) with
  | none => .error (.invalid text)
  | some d =>
      match ofDecimal? d with
      | none => .error (.outOfRange text)
      | some a => .ok a

end Wad

end Barter
