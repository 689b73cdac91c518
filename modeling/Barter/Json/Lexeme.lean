import Barter.Json.Basic
import Barter.Text

namespace Barter.Json

def isGap (c : Char) : Bool :=
  c = ' ' || c = '\t' || c = '\n' || c = '\r'

def skipGap (cs : List Char) : List Char :=
  cs.dropWhile isGap

def unit? (a b c d : Char) : Option Nat := do
  let a ← Text.digit? 16 a
  let b ← Text.digit? 16 b
  let c ← Text.digit? 16 c
  let d ← Text.digit? 16 d
  return ((a * 16 + b) * 16 + c) * 16 + d

def escape? : Char → Option Char
  | '"' => some '"'
  | '\\' => some '\\'
  | '/' => some '/'
  | 'b' => some '\x08'
  | 'f' => some '\x0c'
  | 'n' => some '\n'
  | 'r' => some '\r'
  | 't' => some '\t'
  | _ => none

/-- What a string literal is made of: characters, and escaped units of 16 bits. -/
inductive Piece where
  | char (c : Char)
  | unit (u : Nat)
deriving DecidableEq

def pieces : List Char → Option (List Piece × List Char)
  | [] => none
  | '"' :: rest => some ([], rest)
  | '\\' :: 'u' :: a :: b :: c :: d :: rest => do
      let u ← unit? a b c d
      let (ps, after) ← pieces rest
      return (.unit u :: ps, after)
  | '\\' :: e :: rest => do
      let c ← escape? e
      let (ps, after) ← pieces rest
      return (.char c :: ps, after)
  | c :: rest =>
      if c.toNat < 0x20 then none
      else (pieces rest).map fun (ps, after) => (.char c :: ps, after)

def isHighSurrogate (u : Nat) : Bool :=
  0xd800 ≤ u && u < 0xdc00

def isLowSurrogate (u : Nat) : Bool :=
  0xdc00 ≤ u && u < 0xe000

def join : List Piece → Option (List Char)
  | [] => some []
  | .char c :: rest => (join rest).map (c :: ·)
  | .unit u :: .unit v :: rest =>
      if isHighSurrogate u then
        if isLowSurrogate v then
          (join rest).map (Char.ofNat (0x10000 + (u - 0xd800) * 0x400 + (v - 0xdc00)) :: ·)
        else none
      else if isLowSurrogate u then none
      else (join (.unit v :: rest)).map (Char.ofNat u :: ·)
  | .unit u :: rest =>
      if isHighSurrogate u || isLowSurrogate u then none
      else (join rest).map (Char.ofNat u :: ·)

def stringLiteral (cs : List Char) : Option (Option String × List Char) :=
  (pieces cs).map fun (ps, after) => ((join ps).map String.ofList, after)

def isDigit (c : Char) : Bool :=
  (Text.digit? 10 c).isSome

def digits (cs : List Char) : Option (List Char × List Char) :=
  match cs.takeWhile isDigit with
  | [] => none
  | ds => some (ds, cs.dropWhile isDigit)

def fraction : List Char → Option (List Char × List Char)
  | '.' :: rest => (digits rest).map fun (ds, after) => ('.' :: ds, after)
  | cs => some ([], cs)

def exponent : List Char → Option (List Char × List Char)
  | e :: rest =>
      if e = 'e' || e = 'E' then
        let (sign, unsigned) :=
          match rest with
          | '+' :: after => (['+'], after)
          | '-' :: after => (['-'], after)
          | _ => ([], rest)
        (digits unsigned).map fun (ds, after) => (e :: sign ++ ds, after)
      else some ([], e :: rest)
  | [] => some ([], [])

def numberLiteral (cs : List Char) : Option (Json × List Char) := do
  let (sign, unsigned) :=
    match cs with
    | '-' :: rest => (['-'], rest)
    | _ => ([], cs)
  let (whole, rest) ← digits unsigned
  if whole.head? = some '0' ∧ whole.length ≠ 1 then none
  else
    let (decimals, rest) ← fraction rest
    let (power, rest) ← exponent rest
    if sign.isEmpty && decimals.isEmpty && power.isEmpty then
      return (.nat (Nat.ofDigitChars 10 whole 0), rest)
    else return (.number (String.ofList (sign ++ whole ++ decimals ++ power)), rest)

def word (text : String) (value : Json) (cs : List Char) : Option (Json × List Char) :=
  if text.toList.isPrefixOf cs then some (value, cs.drop text.length) else none

end Barter.Json
