import Barter.Binary64
import Barter.LogFilter.Pattern

namespace Barter

namespace Binary64

def decimal? (cs : List Char) : Option Nat := do
  let isDigit := fun c : Char => c.isDigit
  let whole := cs.takeWhile isDigit
  let rest := cs.dropWhile isDigit
  let (places, rest) :=
    match rest with
    | '.' :: rest => (rest.takeWhile isDigit, rest.dropWhile isDigit)
    | _ => ([], rest)
  let power : Int ←
    match rest with
    | [] => some 0
    | 'e' :: rest | 'E' :: rest =>
        match rest with
        | '-' :: rest => (Text.natural? rest).map fun n => -(n : Int)
        | '+' :: rest => (Text.natural? rest).map Int.ofNat
        | _ => (Text.natural? rest).map Int.ofNat
    | _ => none
  let digits ← Text.natural? (whole ++ places)
  return ofDecimal digits (power - places.length)

end Binary64

namespace LogFilter

inductive Value where
  | bool (b : Bool)
  | real (x : Binary64)
  | notANumber
  | natural (n : Nat)
  | integer (n : Int)
  | pattern (text : String)
deriving DecidableEq

namespace Value

def bool? (cs : List Char) : Option Value :=
  if cs = "true".toList then some (.bool true)
  else if cs = "false".toList then some (.bool false)
  else none

def signed : List Char → Bool × List Char
  | '-' :: cs => (true, cs)
  | '+' :: cs => (false, cs)
  | cs => (false, cs)

def whole? (cs : List Char) : Option Value := do
  let (negative, cs) := signed cs
  let n ← Text.natural? cs
  if negative then if n ≤ 0x8000000000000000 then some (.integer (-n)) else none
  else if n < UInt64.size then some (.natural n)
  else none

def real? (cs : List Char) : Option Value :=
  let (negative, cs) := signed cs
  let name := String.ofList (cs.map Char.toLower)
  if name = "nan" then some .notANumber
  else if name = "inf" || name = "infinity" then some (.real ⟨negative, Binary64.infinite⟩)
  else (Binary64.decimal? cs).map fun bits => .real ⟨negative, bits⟩

def pattern? (cs : List Char) : Option Value :=
  if Pattern.isValid cs then some (.pattern (String.ofList cs)) else none

def ofText? (cs : List Char) : Option Value :=
  (((bool? cs).or (whole? cs)).or (real? cs)).or (pattern? cs)

def text : Value → String
  | .bool true => "true"
  | .bool false => "false"
  | .real x => x.text
  | .notANumber => "NaN"
  | .natural n => toString n
  | .integer n => toString n
  | .pattern text => text

def rank : Value → Nat
  | .bool _ => 0
  | .real _ => 1
  | .notANumber => 2
  | .natural _ => 3
  | .integer _ => 4
  | .pattern _ => 5

def order : Value → Value → Ordering
  | .bool a, .bool b => compare a.toNat b.toNat
  | .real x, .real y => compare x.ordinal y.ordinal
  | .natural m, .natural n => compare m n
  | .integer m, .integer n => compare m n
  | .pattern s, .pattern t => compare s t
  | v, w => compare v.rank w.rank

end Value

end LogFilter

end Barter
