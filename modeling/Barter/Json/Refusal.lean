import Barter.Json.Lexeme

namespace Barter.Json

def dropBytes (n : Nat) (cs : List Char) : List Char :=
  (Text.dropBytes? n cs).getD []

def refuseWord : List Char → List Char → List Char
  | [], cs => cs
  | _ :: _, [] => []
  | w :: ws, c :: rest => if c = w then refuseWord ws rest else dropBytes 1 (c :: rest)

def refusePower (n : Nat) : List Char → List Char
  | [] => []
  | c :: rest =>
      match Text.digit? 10 c with
      | none => c :: rest
      | some d => if 2147483647 < n * 10 + d then rest else refusePower (n * 10 + d) rest

def refuseExponent (isZero : Bool) : List Char → List Char
  | [] => []
  | e :: rest =>
      if e = 'e' || e = 'E' then
        let (negative, unsigned) :=
          match rest with
          | '+' :: after => (false, after)
          | '-' :: after => (true, after)
          | _ => (false, rest)
        if !(unsigned.head?.any isDigit) then dropBytes 1 unsigned
        else if isZero || negative then unsigned.dropWhile isDigit
        else refusePower 0 unsigned
      else e :: rest

def refuseFraction (isZero : Bool) : List Char → List Char
  | '.' :: rest =>
      match digits rest with
      | none => rest
      | some (ds, after) => refuseExponent (isZero && ds.all (· == '0')) after
  | cs => refuseExponent isZero cs

def refuseNumber : List Char → List Char
  | '0' :: rest => if rest.head?.any isDigit then rest else refuseFraction true rest
  | cs =>
      match digits cs with
      | none => dropBytes 1 cs
      | some (_, after) => refuseFraction false after

def refuseString (half : Bool) : List Char → List Char
  | [] => []
  | '\\' :: 'u' :: a :: b :: c :: d :: rest =>
      match unit? a b c d with
      | none => dropBytes 4 (a :: b :: c :: d :: rest)
      | some u =>
          if isLowSurrogate u then if half then refuseString false rest else rest
          else if half then rest
          else refuseString (isHighSurrogate u) rest
  | '\\' :: e :: rest =>
      if e = 'u' then dropBytes 4 rest
      else if half || (escape? e).isNone then dropBytes 1 (e :: rest)
      else refuseString false rest
  | c :: rest =>
      if half || c.toNat < 0x20 then dropBytes 1 (c :: rest)
      else if c = '"' then rest
      else refuseString false rest

/-- What a reader of a byte leaves of a text when it refuses the value at its head. The reader has
gone over the characters one by one, up to the end of the value or the first fault in it, but not
into an array or an object. -/
def refuse : List Char → List Char
  | '-' :: rest => refuseNumber rest
  | '"' :: rest => refuseString false rest
  | 'n' :: rest => refuseWord ['u', 'l', 'l'] rest
  | 't' :: rest => refuseWord ['r', 'u', 'e'] rest
  | 'f' :: rest => refuseWord ['a', 'l', 's', 'e'] rest
  | cs => if cs.head?.any isDigit then refuseNumber cs else cs

end Barter.Json
