import Barter.Snapshot
import Barter.Proofs.Json.Contract

namespace Barter

open Json

namespace MarketKind

@[simp]
theorem fits (layout : Layout) (k : MarketKind) : Fits layout k.toJson :=
  .str layout _

@[simp]
theorem ofJson?_toJson (k : MarketKind) : ofJson? k.toJson = some k :=
  ofName?_name k

def format : Format MarketKind :=
  ⟨.plain, toJson, ofJson?⟩

theorem lawful : format.Lawful where
  fits := fits .plain
  ofJson?_toJson := ofJson?_toJson

end MarketKind

namespace Order

def format : Format Order :=
  ⟨.record fields, toJson, ofJson?⟩

theorem lawful : format.Lawful :=
  .record (by decide) (fun o => by simp [fields]) (fun o => by simp)

end Order

namespace Origin

def format : Format Origin :=
  ⟨.record fields, toJson, ofJson?⟩

theorem lawful : format.Lawful :=
  .record (by decide) (fun o => by simp [fields]) (fun o => by simp)

@[simp]
theorem fits (o : Origin) : Fits (.record fields) o.toJson :=
  lawful.fits o

@[simp]
theorem ofJson?_toJson (o : Origin) : ofJson? o.toJson = some o :=
  lawful.ofJson?_toJson o

end Origin

namespace Announcement

def format : Format Announcement :=
  ⟨.record fields, toJson, ofJson?⟩

theorem lawful : format.Lawful :=
  .record (by decide) (fun a => by simp [fields]) (fun a => by simp)

end Announcement

namespace Fill

def format : Format Fill :=
  ⟨.record fields, toJson, ofJson?⟩

theorem lawful : format.Lawful :=
  .record (by decide) (fun f => by simp [fields]) (fun f => by simp)

end Fill

namespace SnapshotOrder

def format : Format SnapshotOrder :=
  ⟨.record fields, toJson, ofJson?⟩

theorem lawful : format.Lawful :=
  .record (by decide) (fun o => by simp [fields]) (fun o => by simp)

end SnapshotOrder

namespace TokenPair

def format : Format TokenPair :=
  ⟨layout, toJson, ofJson?⟩

theorem lawful : format.Lawful where
  fits p := fits_list (by simp)
  ofJson?_toJson p := by
    change ofJson? p.toJson = some p
    simp [ofJson?, toJson]

end TokenPair

namespace Snapshot

@[simp]
theorem fits_numberOrNull (layout : Layout) (n : Option UInt64) :
    Fits layout (numberOrNull n) := by
  cases n with
  | none => exact .null layout
  | some n => exact fits_ofUInt64 layout n

@[simp]
theorem nullable_numberOrNull (n : Option UInt64) :
    nullable uint64? (numberOrNull n) = some n := by
  cases n with
  | none => rfl
  | some n => exact congrArg (Option.map some) (uint64?_ofUInt64 n)

@[simp]
theorem fits_orders (orders : List SnapshotOrder) :
    Fits (.list (.record SnapshotOrder.fields)) (.arr (orders.map SnapshotOrder.toJson)) :=
  SnapshotOrder.lawful.fits_list orders

@[simp]
theorem listOf_orders (orders : List SnapshotOrder) :
    listOf SnapshotOrder.ofJson? (.arr (orders.map SnapshotOrder.toJson)) = some orders :=
  SnapshotOrder.lawful.listOf_map orders

@[simp]
theorem fits_pairs (pairs : List TokenPair) :
    Fits (.list TokenPair.layout) (.arr (pairs.map TokenPair.toJson)) :=
  TokenPair.lawful.fits_list pairs

@[simp]
theorem listOf_pairs (pairs : List TokenPair) :
    listOf TokenPair.ofJson? (.arr (pairs.map TokenPair.toJson)) = some pairs :=
  TokenPair.lawful.listOf_map pairs

def format : Format Snapshot :=
  ⟨.record fields, toJson, ofJson?⟩

theorem lawful : format.Lawful :=
  .record (by decide) (fun s => by simp [fields]) (fun s => by simp)

theorem ofText_eq_ok_iff {text : String} {s : Snapshot} :
    ofText text = .ok s ↔ format.read? text = some s := by
  have hread : (Json.read? (.record fields) text).bind ofJson? = format.read? text := rfl
  rw [ofText, hread]
  cases format.read? text with
  | none => exact ⟨nofun, nofun⟩
  | some found => rw [Except.ok.injEq, Option.some.injEq]

theorem ofText_write (s : Snapshot) : ofText (format.write s) = .ok s :=
  ofText_eq_ok_iff.mpr (lawful.read?_write s)

end Snapshot

/-- In every format, what was written is read back with all its fields. Three kinds of events are
announcements of an order, and snapshots are read in this format when they are loaded. -/
theorem formats_roundTrip :
    Wad.format.RoundTrips ∧ Value.format.RoundTrips ∧ Log.format.RoundTrips ∧
      Order.format.RoundTrips ∧ MarketKind.format.RoundTrips ∧ Origin.format.RoundTrips ∧
      Announcement.format.RoundTrips ∧ Fill.format.RoundTrips ∧ SnapshotOrder.format.RoundTrips ∧
      Snapshot.format.RoundTrips ∧
      (∀ order : Announcement, ∀ e ∈ [Event.make order, .bump order, .kill order],
        Announcement.format.read? e.toJson.write = some order) ∧
      (∀ fill : Fill, Fill.format.read? (Event.take fill).toJson.write = some fill) ∧
      ∀ (text : String) (s : Snapshot),
        Snapshot.ofText text = .ok s ↔ Snapshot.format.read? text = some s := by
  refine ⟨Wad.lawful.roundTrips, Value.lawful.roundTrips, Log.lawful.roundTrips,
    Order.lawful.roundTrips, MarketKind.lawful.roundTrips, Origin.lawful.roundTrips,
    Announcement.lawful.roundTrips, Fill.lawful.roundTrips, SnapshotOrder.lawful.roundTrips,
    Snapshot.lawful.roundTrips, ?_, Fill.lawful.read?_write, fun _ _ => Snapshot.ofText_eq_ok_iff⟩
  intro order e he
  have hjson : e.toJson = order.toJson := by
    simp only [List.mem_cons, List.not_mem_nil, or_false] at he
    rcases he with rfl | rfl | rfl <;> rfl
  rw [hjson]
  exact Announcement.lawful.read?_write order

example : Value.format.write (.uint ⟨255, by decide⟩) = "\x7b\"Uint\":\"0xff\"\x7d" := by
  decide

end Barter
