import Barter.Event
import Barter.Json.Contract
import Barter.MarketKind
import Barter.Order

namespace Barter

namespace MarketKind

def toJson (k : MarketKind) : Json :=
  .str k.name

def ofJson? : Json → Option MarketKind
  | .str name => ofName? name
  | .obj [(name, .null)] => ofName? name
  | _ => none

end MarketKind

namespace Order

def fields : List (String × Json.Layout) :=
  [("market", Address.layout), ("order_id", .plain), ("maker", Address.layout),
    ("pay_token", Address.layout), ("pay_amount", .plain), ("buy_token", Address.layout),
    ("buy_amount", .plain), ("timestamp", .plain)]

def toJson (o : Order) : Json :=
  .obj
    [("market", o.market.toJson), ("order_id", .ofUInt64 o.id), ("maker", o.maker.toJson),
      ("pay_token", o.payToken.toJson), ("pay_amount", o.payAmount.toJson),
      ("buy_token", o.buyToken.toJson), ("buy_amount", o.buyAmount.toJson),
      ("timestamp", .ofUInt64 o.timestamp)]

def ofJson? (j : Json) : Option Order := do
  match ← j.fields? fields with
  | [market, id, maker, payToken, payAmount, buyToken, buyAmount, timestamp] =>
      return {
        market := ← Json.required Address.ofJson? market
        id := ← Json.required Json.uint64? id
        maker := ← Json.required Address.ofJson? maker
        payToken := ← Json.required Address.ofJson? payToken
        payAmount := ← Json.required Wad.ofJson? payAmount
        buyToken := ← Json.required Address.ofJson? buyToken
        buyAmount := ← Json.required Wad.ofJson? buyAmount
        timestamp := ← Json.required Json.uint64? timestamp }
  | _ => none

end Order

namespace Origin

def fields : List (String × Json.Layout) :=
  [("block_number", .plain), ("transaction_hash", .bytes 32)]

def toJson (o : Origin) : Json :=
  .obj [("block_number", .ofUInt64 o.block), ("transaction_hash", o.transaction.toJson)]

def ofJson? (j : Json) : Option Origin := do
  match ← j.fields? fields with
  | [block, transaction] =>
      return {
        block := ← Json.required Json.uint64? block
        transaction := ← Json.required (Bytes.ofJson? 32) transaction }
  | _ => none

end Origin

namespace Announcement

def fields : List (String × Json.Layout) :=
  [("order_id", .plain), ("maker", Address.layout), ("pay_token", Address.layout),
    ("pay_amount", .plain), ("buy_token", Address.layout), ("buy_amount", .plain),
    ("timestamp", .plain), ("origin", .record Origin.fields)]

def toJson (a : Announcement) : Json :=
  .obj
    [("order_id", .ofUInt64 a.id), ("maker", a.maker.toJson), ("pay_token", a.payToken.toJson),
      ("pay_amount", a.payAmount.toJson), ("buy_token", a.buyToken.toJson),
      ("buy_amount", a.buyAmount.toJson), ("timestamp", .ofUInt64 a.timestamp),
      ("origin", a.origin.toJson)]

def ofJson? (j : Json) : Option Announcement := do
  match ← j.fields? fields with
  | [id, maker, payToken, payAmount, buyToken, buyAmount, timestamp, origin] =>
      return {
        id := ← Json.required Json.uint64? id
        maker := ← Json.required Address.ofJson? maker
        payToken := ← Json.required Address.ofJson? payToken
        payAmount := ← Json.required Wad.ofJson? payAmount
        buyToken := ← Json.required Address.ofJson? buyToken
        buyAmount := ← Json.required Wad.ofJson? buyAmount
        timestamp := ← Json.required Json.uint64? timestamp
        origin := ← Json.required Origin.ofJson? origin }
  | _ => none

end Announcement

namespace Fill

def fields : List (String × Json.Layout) :=
  [("order_id", .plain), ("maker", Address.layout), ("taker", Address.layout),
    ("pay_token", Address.layout), ("take_amount", .plain), ("buy_token", Address.layout),
    ("give_amount", .plain), ("timestamp", .plain), ("origin", .record Origin.fields)]

def toJson (f : Fill) : Json :=
  .obj
    [("order_id", .ofUInt64 f.id), ("maker", f.maker.toJson), ("taker", f.taker.toJson),
      ("pay_token", f.payToken.toJson), ("take_amount", f.takeAmount.toJson),
      ("buy_token", f.buyToken.toJson), ("give_amount", f.giveAmount.toJson),
      ("timestamp", .ofUInt64 f.timestamp), ("origin", f.origin.toJson)]

def ofJson? (j : Json) : Option Fill := do
  match ← j.fields? fields with
  | [id, maker, taker, payToken, takeAmount, buyToken, giveAmount, timestamp, origin] =>
      return {
        id := ← Json.required Json.uint64? id
        maker := ← Json.required Address.ofJson? maker
        taker := ← Json.required Address.ofJson? taker
        payToken := ← Json.required Address.ofJson? payToken
        takeAmount := ← Json.required Wad.ofJson? takeAmount
        buyToken := ← Json.required Address.ofJson? buyToken
        giveAmount := ← Json.required Wad.ofJson? giveAmount
        timestamp := ← Json.required Json.uint64? timestamp
        origin := ← Json.required Origin.ofJson? origin }
  | _ => none

end Fill

namespace Event

def toJson : Event → Json
  | .make order => order.toJson
  | .bump order => order.toJson
  | .take fill => fill.toJson
  | .kill order => order.toJson

end Event

end Barter
