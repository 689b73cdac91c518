import Barter.Contract.Log
import Barter.Json.Basic

namespace Barter

namespace Word

/-- The digits of a number in a base; underscores do not count, and no digits at all are zero. -/
def digits? (base : Nat) (cs : List Char) : Option Nat :=
  cs.foldlM (fun n c => if c = '_' then some n else (Text.digit? base c).map (n * base + ·)) 0

def ofText? (text : String) : Option Word := do
  let n ←
    match text.toList with
    | '0' :: 'x' :: rest => digits? 16 rest
    | '0' :: 'X' :: rest => digits? 16 rest
    | '0' :: 'o' :: rest => digits? 8 rest
    | '0' :: 'O' :: rest => digits? 8 rest
    | '0' :: 'b' :: rest => digits? 2 rest
    | '0' :: 'B' :: rest => digits? 2 rest
    | cs => digits? 10 cs
  ofNat? n

def toJson (w : Word) : Json :=
  .str w.hex

def ofJson? : Json → Option Word
  | .str s => ofText? s
  | j => j.uint64?.map ofUInt64

end Word

namespace Wad

def toJson (a : Wad) : Json :=
  a.raw.toJson

def ofJson? (j : Json) : Option Wad :=
  (Word.ofJson? j).map Wad.mk

end Wad

namespace Bytes

def toJson {n : Nat} (b : Bytes n) : Json :=
  .str b.hex

def byte? : Json → Option UInt8
  | .nat n => if n < 256 then some (UInt8.ofNat n) else none
  | _ => none

def ofJson? (n : Nat) : Json → Option (Bytes n)
  | .str s => ofHex? n s
  | .arr items => (items.mapM byte?).bind (ofList? n)
  | _ => none

end Bytes

namespace Address

def layout : Json.Layout :=
  .bytes 20

def toJson (a : Address) : Json :=
  Bytes.toJson a

def ofJson? (j : Json) : Option Address :=
  Bytes.ofJson? 20 j

end Address

namespace Value

def layout : Json.Layout :=
  .record
    [("Address", Address.layout), ("Uint", .plain), ("Bool", .plain), ("Bytes32", .bytes 32)]

def toJson : Value → Json
  | .address a => .obj [("Address", a.toJson)]
  | .uint w => .obj [("Uint", w.toJson)]
  | .bool b => .obj [("Bool", .bool b)]
  | .bytes32 h => .obj [("Bytes32", h.toJson)]

def ofJson? : Json → Option Value
  | .obj [("Address", j)] => .address <$> Address.ofJson? j
  | .obj [("Uint", j)] => .uint <$> Word.ofJson? j
  | .obj [("Bool", j)] => .bool <$> j.bool?
  | .obj [("Bytes32", j)] => .bytes32 <$> Bytes.ofJson? 32 j
  | _ => none

end Value

namespace Log

def argsToJson (args : Std.ExtTreeMap String Value) : Json :=
  .obj (args.toList.map fun (name, v) => (name, v.toJson))

/-- Of several arguments of one name the last one counts, but all of them have to be values. -/
def argsOfJson? : Json → Option (Std.ExtTreeMap String Value)
  | .obj members => members.foldlM (fun args (name, j) => args.insert name <$> Value.ofJson? j) ∅
  | _ => none

def fields : List (String × Json.Layout) :=
  [("address", Address.layout), ("event", .plain), ("block_number", .plain),
    ("transaction_hash", .bytes 32), ("args", .map Value.layout)]

def toJson (l : Log) : Json :=
  .obj
    [("address", l.contract.toJson), ("event", .str l.event), ("block_number", .ofUInt64 l.block),
      ("transaction_hash", l.transaction.toJson), ("args", argsToJson l.args)]

def ofJson? (j : Json) : Option Log := do
  match ← j.fields? fields with
  | [contract, event, block, transaction, args] =>
      return {
        contract := ← Json.required Address.ofJson? contract
        event := ← Json.required Json.str? event
        block := ← Json.required Json.uint64? block
        transaction := ← Json.required (Bytes.ofJson? 32) transaction
        args := ← Json.required argsOfJson? args }
  | _ => none

end Log

end Barter
