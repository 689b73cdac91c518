import Barter.Proofs.Book
import Barter.Proofs.Command
import Mathlib.Algebra.Group.Nat.Defs

namespace Barter

inductive ArgumentType where
  | id
  | address
  | amount
  | time
deriving DecidableEq

namespace ArgumentType

def expected : ArgumentType → ValueKind
  | .id => .bytes32
  | .address => .address
  | .amount => .uint
  | .time => .uint

def Takes (t : ArgumentType) (kind : ValueKind) : Prop :=
  kind = t.expected ∨ t = .id ∧ kind = .uint

/-- Ids and times have 64 bits. Bytes are a number with the most significant one first. -/
inductive Suits : ArgumentType → Value → Prop
  | idBytes (h : Hash) (hlt : h.toNat < 2 ^ 64) : Suits .id (.bytes32 h)
  | idNumber (w : Word) (hlt : w.toNat < 2 ^ 64) : Suits .id (.uint w)
  | address (a : Address) : Suits .address (.address a)
  | amount (w : Word) : Suits .amount (.uint w)
  | time (w : Word) (hlt : w.toNat < 2 ^ 64) : Suits .time (.uint w)

inductive Exceeds : ArgumentType → Value → Word → Prop
  | idBytes (h : Hash) (hle : 2 ^ 64 ≤ h.toNat) : Exceeds .id (.bytes32 h) (.ofBytes h)
  | idNumber (w : Word) (hle : 2 ^ 64 ≤ w.toNat) : Exceeds .id (.uint w) w
  | time (w : Word) (hle : 2 ^ 64 ≤ w.toNat) : Exceeds .time (.uint w) w

theorem suits_or_exceeds {t : ArgumentType} {v : Value} (h : t.Takes v.kind) :
    t.Suits v ∨ ∃ w, t.Exceeds v w := by
  cases v with
  | address a =>
      cases t with
      | address => exact .inl (.address a)
      | id | amount | time => simp [Takes, expected, Value.kind] at h
  | uint w =>
      cases t with
      | id =>
          rcases Nat.lt_or_ge w.toNat (2 ^ 64) with hlt | hle
          · exact .inl (.idNumber w hlt)
          · exact .inr ⟨w, .idNumber w hle⟩
      | amount => exact .inl (.amount w)
      | time =>
          rcases Nat.lt_or_ge w.toNat (2 ^ 64) with hlt | hle
          · exact .inl (.time w hlt)
          · exact .inr ⟨w, .time w hle⟩
      | address => simp [Takes, expected, Value.kind] at h
  | bool b => cases t <;> simp [Takes, expected, Value.kind] at h
  | bytes32 hash =>
      cases t with
      | id =>
          rcases Nat.lt_or_ge hash.toNat (2 ^ 64) with hlt | hle
          · exact .inl (.idBytes hash hlt)
          · exact .inr ⟨.ofBytes hash, .idBytes hash hle⟩
      | address | amount | time => simp [Takes, expected, Value.kind] at h

end ArgumentType

structure Argument where
  name : String
  type : ArgumentType

/-- The arguments that a log of the event must have, in the order in which they are looked at. -/
def EventKind.layout : EventKind → List Argument
  | .take =>
      [⟨"id", .id⟩, ⟨"maker", .address⟩, ⟨"taker", .address⟩, ⟨"pay_gem", .address⟩,
        ⟨"take_amt", .amount⟩, ⟨"buy_gem", .address⟩, ⟨"give_amt", .amount⟩, ⟨"timestamp", .time⟩]
  | .make | .bump | .kill =>
      [⟨"id", .id⟩, ⟨"maker", .address⟩, ⟨"pay_gem", .address⟩, ⟨"pay_amt", .amount⟩,
        ⟨"buy_gem", .address⟩, ⟨"buy_amt", .amount⟩, ⟨"timestamp", .time⟩]

namespace Log

variable {l : Log}

def Has (l : Log) (arg : Argument) : Prop :=
  ∃ v, l.args[arg.name]? = some v ∧ arg.type.Suits v

inductive Offends (l : Log) (arg : Argument) : LogFault → Prop
  | missing (h : l.args[arg.name]? = none) : Offends l arg (.missing arg.name)
  | mistyped (v : Value) (h : l.args[arg.name]? = some v) (hkind : ¬ arg.type.Takes v.kind) :
      Offends l arg (.mistyped arg.name arg.type.expected v.kind)
  | tooLarge (v : Value) (w : Word) (h : l.args[arg.name]? = some v)
      (hlarge : arg.type.Exceeds v w) : Offends l arg (.tooLarge arg.name w)

/-- What is wrong with the first argument that is not as it should be. -/
inductive FirstFault (l : Log) : List Argument → LogFault → Prop
  | here (arg : Argument) (rest : List Argument) (cause : LogFault) (h : l.Offends arg cause) :
      FirstFault l (arg :: rest) cause
  | later (arg : Argument) (rest : List Argument) (cause : LogFault) (hhas : l.Has arg)
      (h : FirstFault l rest cause) : FirstFault l (arg :: rest) cause

theorem has_or_offends (l : Log) (arg : Argument) : l.Has arg ∨ ∃ cause, l.Offends arg cause := by
  cases hv : l.args[arg.name]? with
  | none => exact .inr ⟨_, .missing hv⟩
  | some v =>
      by_cases hkind : arg.type.Takes v.kind
      · rcases ArgumentType.suits_or_exceeds hkind with hsuits | ⟨w, hlarge⟩
        · exact .inl ⟨v, hv, hsuits⟩
        · exact .inr ⟨_, .tooLarge v w hv hlarge⟩
      · exact .inr ⟨_, .mistyped v hv hkind⟩

theorem has_all_or_firstFault (l : Log) (layout : List Argument) :
    (∀ arg ∈ layout, l.Has arg) ∨ ∃ cause, l.FirstFault layout cause := by
  induction layout with
  | nil => exact .inl nofun
  | cons arg rest ih =>
      rcases l.has_or_offends arg with hhas | ⟨cause, hoffends⟩
      · rcases ih with hall | ⟨cause, hfault⟩
        · exact .inl (List.forall_mem_cons.mpr ⟨hhas, hall⟩)
        · exact .inr ⟨cause, .later arg rest cause hhas hfault⟩
      · exact .inr ⟨cause, .here arg rest cause hoffends⟩

structure Reads {α : Type} (l : Log) (arg : Argument) (x : Except LogFault α) : Prop where
  ok : l.Has arg → ∃ a, x = .ok a
  error : ∀ cause, l.Offends arg cause → x = .error cause

structure ReadsAll {α : Type} (l : Log) (layout : List Argument) (x : Except LogFault α) :
    Prop where
  ok : (∀ arg ∈ layout, l.Has arg) → ∃ a, x = .ok a
  error : ∀ cause, l.FirstFault layout cause → x = .error cause

namespace ReadsAll

variable {α β : Type} {arg : Argument} {layout : List Argument}

theorem nil (a : α) : l.ReadsAll [] (.ok a) :=
  ⟨fun _ => ⟨a, rfl⟩, nofun⟩

theorem cons {x : Except LogFault α} {f : α → Except LogFault β} (hx : l.Reads arg x)
    (hf : ∀ a, l.ReadsAll layout (f a)) : l.ReadsAll (arg :: layout) (x >>= f) := by
  refine ⟨fun hall => ?ok, fun cause hfault => ?error⟩
  case ok =>
    obtain ⟨hhas, hrest⟩ := List.forall_mem_cons.mp hall
    obtain ⟨a, rfl⟩ := hx.ok hhas
    exact (hf a).ok hrest
  case error =>
    cases hfault with
    | here _ _ _ h =>
        rw [hx.error cause h]
        rfl
    | later _ _ _ hhas h =>
        obtain ⟨a, rfl⟩ := hx.ok hhas
        exact (hf a).error cause h

theorem map {x : Except LogFault α} (h : l.ReadsAll layout x) (f : α → β) :
    l.ReadsAll layout (f <$> x) := by
  refine ⟨fun hall => ?ok, fun cause hfault => ?error⟩
  case ok =>
    obtain ⟨a, rfl⟩ := h.ok hall
    exact ⟨f a, rfl⟩
  case error =>
    rw [h.error cause hfault]
    rfl

theorem exists_ok_iff {x : Except LogFault α} (h : l.ReadsAll layout x) :
    (∃ a, x = .ok a) ↔ ∀ arg ∈ layout, l.Has arg := by
  refine ⟨?_, h.ok⟩
  rintro ⟨a, rfl⟩
  rcases l.has_all_or_firstFault layout with hall | ⟨cause, hfault⟩
  · exact hall
  · exact nomatch h.error cause hfault

theorem eq_error_iff {x : Except LogFault α} (h : l.ReadsAll layout x) {cause : LogFault} :
    x = .error cause ↔ l.FirstFault layout cause := by
  refine ⟨?_, h.error cause⟩
  rintro rfl
  rcases l.has_all_or_firstFault layout with hall | ⟨found, hfault⟩
  · obtain ⟨a, ha⟩ := h.ok hall
    cases ha
  · obtain rfl := Except.error.inj (h.error found hfault)
    exact hfault

end ReadsAll

section Readers

variable (l) (name : String)

theorem narrow_eq_ok_iff {name : String} {w : Word} {n : UInt64} :
    narrow name w = .ok n ↔ w = .ofUInt64 n := by
  rw [← Word.toUInt64?_eq_some_iff, narrow]
  cases w.toUInt64? with
  | none => exact iff_of_false nofun nofun
  | some found => rw [Except.ok.injEq, Option.some.injEq]

theorem narrow_of_lt {w : Word} (hlt : w.toNat < 2 ^ 64) : ∃ n, narrow name w = .ok n :=
  ⟨.ofNat w.toNat, narrow_eq_ok_iff.mpr (Word.ext (Nat.mod_eq_of_lt hlt).symm)⟩

theorem narrow_of_le {w : Word} (hle : 2 ^ 64 ≤ w.toNat) :
    narrow name w = .error (.tooLarge name w) := by
  have hlarge : ¬ w.toNat < UInt64.size := Nat.not_lt.mpr hle
  rw [narrow, Word.toUInt64?, if_neg hlarge]

theorem Reads.of_field {α : Type} {t : ArgumentType} {f : Value → Except LogFault α}
    (hsuits : ∀ v, t.Suits v → ∃ a, f v = .ok a)
    (hkind : ∀ v : Value, ¬ t.Takes v.kind → f v = .error (.mistyped name t.expected v.kind))
    (hlarge : ∀ v w, t.Exceeds v w → f v = .error (.tooLarge name w)) :
    l.Reads ⟨name, t⟩ (l.field name >>= f) := by
  refine ⟨?ok, fun cause hoffends => ?error⟩
  case ok =>
    rintro ⟨v, hv, h⟩
    obtain ⟨a, ha⟩ := hsuits v h
    exact ⟨a, by rw [field, hv]; exact ha⟩
  case error =>
    cases hoffends with
    | missing hnone => rw [field, hnone]; rfl
    | mistyped v hv h => rw [field, hv]; exact hkind v h
    | tooLarge v w hv h => rw [field, hv]; exact hlarge v w h

theorem reads_address : l.Reads ⟨name, .address⟩ (l.address name) := by
  refine .of_field l name ?suits ?kind nofun
  case suits =>
    rintro _ ⟨⟩
    exact ⟨_, rfl⟩
  case kind =>
    intro v hkind
    cases v with
    | address => exact absurd (.inl rfl) hkind
    | uint | bool | bytes32 => rfl

theorem reads_amount : l.Reads ⟨name, .amount⟩ (l.amount name) := by
  refine .of_field l name ?suits ?kind nofun
  case suits =>
    rintro _ ⟨⟩
    exact ⟨_, rfl⟩
  case kind =>
    intro v hkind
    cases v with
    | uint => exact absurd (.inl rfl) hkind
    | address | bool | bytes32 => rfl

theorem reads_number : l.Reads ⟨name, .time⟩ (l.number name) := by
  refine .of_field l name ?suits ?kind ?large
  case suits =>
    intro v hsuits
    cases hsuits with
    | time w hlt => exact narrow_of_lt name hlt
  case kind =>
    intro v hkind
    cases v with
    | uint => exact absurd (.inl rfl) hkind
    | address | bool | bytes32 => rfl
  case large =>
    intro v w hlarge
    cases hlarge with
    | time w hle => exact narrow_of_le name hle

theorem reads_orderId : l.Reads ⟨name, .id⟩ (l.orderId name) := by
  refine .of_field l name ?suits ?kind ?large
  case suits =>
    intro v hsuits
    cases hsuits with
    | idBytes hash hlt => exact narrow_of_lt name (w := .ofBytes hash) hlt
    | idNumber w hlt => exact narrow_of_lt name hlt
  case kind =>
    intro v hkind
    cases v with
    | uint => exact absurd (.inr ⟨rfl, rfl⟩) hkind
    | bytes32 => exact absurd (.inl rfl) hkind
    | address | bool => rfl
  case large =>
    intro v w hlarge
    cases hlarge with
    | idBytes hash hle => exact narrow_of_le name (w := .ofBytes hash) hle
    | idNumber w hle => exact narrow_of_le name hle

theorem reads_announcement :
    l.ReadsAll EventKind.make.layout l.announcement :=
  .cons (l.reads_orderId _) fun _ => .cons (l.reads_address _) fun _ =>
    .cons (l.reads_address _) fun _ => .cons (l.reads_amount _) fun _ =>
      .cons (l.reads_address _) fun _ => .cons (l.reads_amount _) fun _ =>
        .cons (l.reads_number _) fun _ => .nil _

theorem reads_fill : l.ReadsAll EventKind.take.layout l.fill :=
  .cons (l.reads_orderId _) fun _ => .cons (l.reads_address _) fun _ =>
    .cons (l.reads_address _) fun _ => .cons (l.reads_address _) fun _ =>
      .cons (l.reads_amount _) fun _ => .cons (l.reads_address _) fun _ =>
        .cons (l.reads_amount _) fun _ => .cons (l.reads_number _) fun _ => .nil _

end Readers

end Log

inductive Value.IsId (id : OrderId) : Value → Prop
  | bytes (h : Hash) (heq : h.toNat = id.toNat) : IsId id (.bytes32 h)
  | number (w : Word) (heq : w.toNat = id.toNat) : IsId id (.uint w)

structure Announcement.IsIn (a : Announcement) (l : Log) : Prop where
  id : ∃ v, l.args["id"]? = some v ∧ v.IsId a.id
  maker : l.args["maker"]? = some (.address a.maker)
  payToken : l.args["pay_gem"]? = some (.address a.payToken)
  payAmount : l.args["pay_amt"]? = some (.uint a.payAmount.raw)
  buyToken : l.args["buy_gem"]? = some (.address a.buyToken)
  buyAmount : l.args["buy_amt"]? = some (.uint a.buyAmount.raw)
  timestamp : l.args["timestamp"]? = some (.number a.timestamp)
  block : a.origin.block = l.block
  transaction : a.origin.transaction = l.transaction

structure Fill.IsIn (f : Fill) (l : Log) : Prop where
  id : ∃ v, l.args["id"]? = some v ∧ v.IsId f.id
  maker : l.args["maker"]? = some (.address f.maker)
  taker : l.args["taker"]? = some (.address f.taker)
  payToken : l.args["pay_gem"]? = some (.address f.payToken)
  takeAmount : l.args["take_amt"]? = some (.uint f.takeAmount.raw)
  buyToken : l.args["buy_gem"]? = some (.address f.buyToken)
  giveAmount : l.args["give_amt"]? = some (.uint f.giveAmount.raw)
  timestamp : l.args["timestamp"]? = some (.number f.timestamp)
  block : f.origin.block = l.block
  transaction : f.origin.transaction = l.transaction

def Event.IsIn : Event → Log → Prop
  | .make order, l => order.IsIn l
  | .bump order, l => order.IsIn l
  | .take fill, l => fill.IsIn l
  | .kill order, l => order.IsIn l

namespace Log

section Values

variable {l : Log} {name : String}

theorem field_eq_ok_iff {v : Value} : l.field name = .ok v ↔ l.args[name]? = some v := by
  rw [field]
  cases l.args[name]? with
  | none => exact iff_of_false nofun nofun
  | some found => rw [Except.ok.injEq, Option.some.injEq]

theorem address_eq_ok_iff {a : Address} :
    l.address name = .ok a ↔ l.args[name]? = some (.address a) := by
  rw [address, bind_eq_ok_iff]
  constructor
  · rintro ⟨v, hv, h⟩
    cases v with
    | address found =>
        obtain rfl := Except.ok.inj h
        exact field_eq_ok_iff.mp hv
    | uint | bool | bytes32 => cases h
  · intro h
    exact ⟨_, field_eq_ok_iff.mpr h, rfl⟩

theorem amount_eq_ok_iff {a : Wad} :
    l.amount name = .ok a ↔ l.args[name]? = some (.uint a.raw) := by
  rw [amount, bind_eq_ok_iff]
  constructor
  · rintro ⟨v, hv, h⟩
    cases v with
    | uint w =>
        obtain rfl := Except.ok.inj h
        exact field_eq_ok_iff.mp hv
    | address | bool | bytes32 => cases h
  · intro h
    exact ⟨_, field_eq_ok_iff.mpr h, rfl⟩

theorem number_eq_ok_iff {n : UInt64} :
    l.number name = .ok n ↔ l.args[name]? = some (.number n) := by
  rw [number, bind_eq_ok_iff]
  constructor
  · rintro ⟨v, hv, h⟩
    cases v with
    | uint w =>
        obtain rfl := narrow_eq_ok_iff.mp h
        exact field_eq_ok_iff.mp hv
    | address | bool | bytes32 => cases h
  · intro h
    exact ⟨_, field_eq_ok_iff.mpr h, narrow_eq_ok_iff.mpr rfl⟩

theorem orderId_eq_ok_iff {id : OrderId} :
    l.orderId name = .ok id ↔ ∃ v, l.args[name]? = some v ∧ v.IsId id := by
  rw [orderId, bind_eq_ok_iff]
  refine exists_congr fun v => and_congr field_eq_ok_iff ⟨fun h => ?_, fun h => ?_⟩
  · cases v with
    | bytes32 hash => exact .bytes hash (congrArg Word.toNat (narrow_eq_ok_iff.mp h))
    | uint w => exact .number w (congrArg Word.toNat (narrow_eq_ok_iff.mp h))
    | address | bool => cases h
  · cases h with
    | bytes hash heq => exact narrow_eq_ok_iff.mpr (Word.ext heq)
    | number w heq => exact narrow_eq_ok_iff.mpr (Word.ext heq)

theorem announcement_eq_ok_iff {a : Announcement} : l.announcement = .ok a ↔ a.IsIn l := by
  constructor
  · intro h
    unfold announcement at h
    obtain ⟨id, hid, h⟩ := bind_eq_ok_iff.mp h
    obtain ⟨maker, hmaker, h⟩ := bind_eq_ok_iff.mp h
    obtain ⟨payToken, hpayToken, h⟩ := bind_eq_ok_iff.mp h
    obtain ⟨payAmount, hpay, h⟩ := bind_eq_ok_iff.mp h
    obtain ⟨buyToken, hbuyToken, h⟩ := bind_eq_ok_iff.mp h
    obtain ⟨buyAmount, hbuy, h⟩ := bind_eq_ok_iff.mp h
    obtain ⟨timestamp, htime, h⟩ := bind_eq_ok_iff.mp h
    cases h
    exact ⟨orderId_eq_ok_iff.mp hid, address_eq_ok_iff.mp hmaker, address_eq_ok_iff.mp hpayToken,
      amount_eq_ok_iff.mp hpay, address_eq_ok_iff.mp hbuyToken, amount_eq_ok_iff.mp hbuy,
      number_eq_ok_iff.mp htime, rfl, rfl⟩
  · rintro ⟨hid, hmaker, hpayToken, hpay, hbuyToken, hbuy, htime, hblock, htransaction⟩
    have horigin : l.origin = a.origin := by rw [origin, ← hblock, ← htransaction]
    rw [announcement, orderId_eq_ok_iff.mpr hid, address_eq_ok_iff.mpr hmaker,
      address_eq_ok_iff.mpr hpayToken, amount_eq_ok_iff.mpr hpay, address_eq_ok_iff.mpr hbuyToken,
      amount_eq_ok_iff.mpr hbuy, number_eq_ok_iff.mpr htime, horigin]
    rfl

theorem fill_eq_ok_iff {f : Fill} : l.fill = .ok f ↔ f.IsIn l := by
  constructor
  · intro h
    unfold fill at h
    obtain ⟨id, hid, h⟩ := bind_eq_ok_iff.mp h
    obtain ⟨maker, hmaker, h⟩ := bind_eq_ok_iff.mp h
    obtain ⟨taker, htaker, h⟩ := bind_eq_ok_iff.mp h
    obtain ⟨payToken, hpayToken, h⟩ := bind_eq_ok_iff.mp h
    obtain ⟨takeAmount, htake, h⟩ := bind_eq_ok_iff.mp h
    obtain ⟨buyToken, hbuyToken, h⟩ := bind_eq_ok_iff.mp h
    obtain ⟨giveAmount, hgive, h⟩ := bind_eq_ok_iff.mp h
    obtain ⟨timestamp, htime, h⟩ := bind_eq_ok_iff.mp h
    cases h
    exact ⟨orderId_eq_ok_iff.mp hid, address_eq_ok_iff.mp hmaker, address_eq_ok_iff.mp htaker,
      address_eq_ok_iff.mp hpayToken, amount_eq_ok_iff.mp htake, address_eq_ok_iff.mp hbuyToken,
      amount_eq_ok_iff.mp hgive, number_eq_ok_iff.mp htime, rfl, rfl⟩
  · rintro ⟨hid, hmaker, htaker, hpayToken, htake, hbuyToken, hgive, htime, hblock, htransaction⟩
    have horigin : l.origin = f.origin := by rw [origin, ← hblock, ← htransaction]
    rw [fill, orderId_eq_ok_iff.mpr hid, address_eq_ok_iff.mpr hmaker,
      address_eq_ok_iff.mpr htaker, address_eq_ok_iff.mpr hpayToken, amount_eq_ok_iff.mpr htake,
      address_eq_ok_iff.mpr hbuyToken, amount_eq_ok_iff.mpr hgive, number_eq_ok_iff.mpr htime,
      horigin]
    rfl

end Values

structure IsAlike (kind : EventKind) (l l' : Log) : Prop where
  event : l.event = l'.event
  block : l.block = l'.block
  transaction : l.transaction = l'.transaction
  args : ∀ arg ∈ kind.layout, l.args[arg.name]? = l'.args[arg.name]?

section

variable {l l' : Log} {kind : EventKind}

theorem announcement_congr (horigin : l.origin = l'.origin)
    (hargs : ∀ arg ∈ EventKind.make.layout, l.args[arg.name]? = l'.args[arg.name]?) :
    l.announcement = l'.announcement := by
  simp only [EventKind.layout, List.forall_mem_cons] at hargs
  simp only [announcement, orderId, address, amount, number, field, hargs, horigin]

theorem fill_congr (horigin : l.origin = l'.origin)
    (hargs : ∀ arg ∈ EventKind.take.layout, l.args[arg.name]? = l'.args[arg.name]?) :
    l.fill = l'.fill := by
  simp only [EventKind.layout, List.forall_mem_cons] at hargs
  simp only [fill, orderId, address, amount, number, field, hargs, horigin]

theorem IsAlike.read_eq (h : l.IsAlike kind l') : l.read kind = l'.read kind := by
  have horigin : l.origin = l'.origin := by rw [origin, h.block, h.transaction]; rfl
  unfold read
  rw [h.event]
  cases kind with
  | make | bump | kill => simp only [announcement_congr horigin h.args]
  | take => simp only [fill_congr horigin h.args]

theorem readsAll_read (hname : l.event = kind.name) : l.ReadsAll kind.layout (l.read kind) := by
  unfold read
  rw [if_neg (not_not.mpr hname)]
  cases kind with
  | make | bump | kill => exact l.reads_announcement.map _
  | take => exact l.reads_fill.map _

theorem read_eq_ok_iff {e : Event} (hname : l.event = kind.name) :
    l.read kind = .ok e ↔ e.kind = kind ∧ e.IsIn l := by
  unfold read
  rw [if_neg (not_not.mpr hname)]
  -- only the event that is read has the kind, whichever of the two layouts it has
  cases kind <;> cases e <;>
    simp [map_eq_ok_iff, announcement_eq_ok_iff, fill_eq_ok_iff, Event.kind, Event.IsIn]

end

end Log

namespace Event

variable {l : Log} {kind : EventKind}

theorem ofLog_of_event_ne (hname : l.event ≠ kind.name) :
    ofLog kind l = .error (.malformedEvent kind (.otherEvent l.event)) := by
  have hread : l.read kind = .error (.otherEvent l.event) := if_pos hname
  rw [ofLog, hread]
  rfl

theorem ofLog_eq_ok_iff {e : Event} :
    ofLog kind l = .ok e ↔ l.event = kind.name ∧ e.kind = kind ∧ e.IsIn l := by
  by_cases hname : l.event = kind.name
  · rw [ofLog, mapError_eq_ok_iff, Log.read_eq_ok_iff hname, and_iff_right hname]
  · rw [ofLog_of_event_ne hname]
    exact iff_of_false nofun fun h => hname h.1

theorem exists_ofLog_iff :
    (∃ e, ofLog kind l = .ok e) ↔ l.event = kind.name ∧ ∀ arg ∈ kind.layout, l.Has arg := by
  by_cases hname : l.event = kind.name
  · simp only [ofLog, mapError_eq_ok_iff]
    rw [(Log.readsAll_read hname).exists_ok_iff, and_iff_right hname]
  · rw [ofLog_of_event_ne hname]
    exact iff_of_false nofun fun h => hname h.1

theorem ofLog_eq_error_iff {f : Failure} :
    ofLog kind l = .error f ↔ ∃ cause, f = .malformedEvent kind cause ∧
      (l.event ≠ kind.name ∧ cause = .otherEvent l.event ∨
        l.event = kind.name ∧ l.FirstFault kind.layout cause) := by
  by_cases hname : l.event = kind.name
  · rw [ofLog, mapError_eq_error_iff]
    refine exists_congr fun cause => ?_
    rw [(Log.readsAll_read hname).eq_error_iff, and_comm, eq_comm]
    simp only [hname, ne_eq, not_true_eq_false, false_and, false_or, true_and]
  · rw [ofLog_of_event_ne hname, Except.error.injEq]
    constructor
    · rintro rfl
      exact ⟨_, rfl, .inl ⟨hname, rfl⟩⟩
    · rintro ⟨_, rfl, ⟨_, rfl⟩ | ⟨hsame, _⟩⟩
      · rfl
      · exact absurd hsame hname

/-- A log is read as an event just where it bears its name and has all its arguments. Otherwise it
is malformed for its name, or for the first argument that is not as it should be. -/
theorem ofLog_spec (kind : EventKind) (l : Log) :
    ((∃ e, ofLog kind l = .ok e) ↔ l.event = kind.name ∧ ∀ arg ∈ kind.layout, l.Has arg) ∧
      (∀ e, ofLog kind l = .ok e ↔ l.event = kind.name ∧ e.kind = kind ∧ e.IsIn l) ∧
      (∀ f, ofLog kind l = .error f ↔ ∃ cause, f = .malformedEvent kind cause ∧
        (l.event ≠ kind.name ∧ cause = .otherEvent l.event ∨
          l.event = kind.name ∧ l.FirstFault kind.layout cause)) ∧
      ∀ l', l.IsAlike kind l' → ofLog kind l = ofLog kind l' := by
  refine ⟨exists_ofLog_iff, fun _ => ofLog_eq_ok_iff, fun _ => ofLog_eq_error_iff, ?_⟩
  intro l' halike
  rw [ofLog, ofLog, halike.read_eq]

def trialOrder : Announcement :=
  { id := 5, maker := .ofNat 20 1, payToken := .ofNat 20 3, payAmount := ⟨.ofUInt64 3⟩,
    buyToken := .ofNat 20 4, buyAmount := ⟨.ofUInt64 5⟩, timestamp := 1000,
    origin := ⟨12, .zero 32⟩ }

def trialArgs : List (String × Value) :=
  [("id", .number 5), ("maker", .address trialOrder.maker),
    ("pay_gem", .address trialOrder.payToken), ("pay_amt", .amount trialOrder.payAmount),
    ("buy_gem", .address trialOrder.buyToken), ("buy_amt", .amount trialOrder.buyAmount),
    ("timestamp", .number 1000), ("memo", .bool true)]

def trialLog : Log :=
  ⟨.zero, "LogMake", 12, .zero 32, .ofList trialArgs⟩

theorem ofLog_spec_of_trial :
    let args := (trialLog.args.erase "maker").insert "pay_amt" (.bool true)
    let garbled := { trialLog with args }
    ofLog .make trialLog = .ok (.make trialOrder) ∧
      ofLog .kill trialLog = .error (.malformedEvent .kill (.otherEvent "LogMake")) ∧
      ofLog .make garbled = .error (.malformedEvent .make (.missing "maker")) := by
  intro args garbled
  have htold : trialOrder.IsIn trialLog :=
    { id := ⟨.number 5, by decide, .number _ rfl⟩
      maker := by decide
      payToken := by decide
      payAmount := by decide
      buyToken := by decide
      buyAmount := by decide
      timestamp := by decide
      block := rfl
      transaction := rfl }
  have hid : garbled.Has ⟨"id", .id⟩ := ⟨.number 5, by decide, .idNumber _ (by decide)⟩
  have hmaker : garbled.Offends ⟨"maker", .address⟩ (.missing "maker") := .missing (by decide)
  refine ⟨((ofLog_spec .make trialLog).2.1 _).mpr ⟨rfl, rfl, htold⟩,
    ((ofLog_spec .kill trialLog).2.2.1 _).mpr ⟨_, rfl, .inl ⟨by decide, rfl⟩⟩,
    ((ofLog_spec .make garbled).2.2.1 _).mpr ⟨_, rfl, .inr ⟨rfl, ?_⟩⟩⟩
  exact .later _ _ _ hid (.here _ _ _ hmaker)

end Event

end Barter
