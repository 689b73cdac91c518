namespace Barter

/-- A JSON text. Only numbers written as plain natural numbers have a value; `number` keeps any
other literal as it stands. `garbled` is a string with half of a surrogate pair in it, or an object
with such a key: it may be passed over, but not read. -/
inductive Json where
  | null
  | bool (b : Bool)
  | nat (n : Nat)
  | number (literal : String)
  | str (s : String)
  | arr (items : List Json)
  | obj (members : List (String × Json))
  | garbled

namespace Json

def bool? : Json → Option Bool
  | .bool b => some b
  | _ => none

def str? : Json → Option String
  | .str s => some s
  | _ => none

def arr? : Json → Option (List Json)
  | .arr items => some items
  | _ => none

def uint64? : Json → Option UInt64
  | .nat n => if n < UInt64.size then some (UInt64.ofNat n) else none
  | _ => none

def ofUInt64 (n : UInt64) : Json :=
  .nat n.toNat

def member? (j : Json) (name : String) : Option Json :=
  match j with
  | .obj members => List.lookup name members
  | _ => none

/-- What is known of a text before it is read: where arrays of bytes stand in it, and how many bytes
they hold. -/
inductive Layout where
  | plain
  | bytes (count : Nat)
  | list (item : Layout)
  | map (member : Layout)
  | record (fields : List (String × Layout))

def Layout.item : Layout → Nat → Layout
  | .list item, _ => item
  | .record fields, i => (fields[i]?.map (·.2)).getD .plain
  | _, _ => .plain

def Layout.member : Layout → String → Layout
  | .map member, _ => member
  | .record fields, name => (fields.lookup name).getD .plain
  | _, _ => .plain

/-- The fields of a record in their order, `none` for one that is left out. A record is an object,
in which other fields are passed over and none of these stands twice, or an array of the fields in
their order, the last ones of which may be left out. -/
def fields? (fields : List (String × Layout)) (j : Json) : Option (List (Option Json)) :=
  match j with
  | .obj members =>
      if fields.all fun (name, _) => members.countP (·.1 == name) ≤ 1 then
        some (fields.map fun (name, _) => j.member? name)
      else none
  | .arr items =>
      if items.length ≤ fields.length then
        some ((List.range fields.length).map fun i => items[i]?)
      else none
  | _ => none

variable {α : Type}

def required (read : Json → Option α) (field : Option Json) : Option α :=
  field.bind read

def optional (default : α) (read : Json → Option α) : Option Json → Option α
  | none => some default
  | some j => read j

def nullable (read : Json → Option α) : Json → Option (Option α)
  | .null => some none
  | j => some <$> read j

def listOf (read : Json → Option α) (j : Json) : Option (List α) := do
  (← j.arr?).mapM read

end Json

end Barter
