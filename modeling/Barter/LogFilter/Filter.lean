import Barter.LogFilter.Directive

namespace Barter

namespace LogFilter

def optionOrder {α : Type} (order : α → α → Ordering) : Option α → Option α → Ordering
  | none, none => .eq
  | none, some _ => .lt
  | some _, none => .gt
  | some a, some b => order a b

namespace Field

def order (f g : Field) : Ordering :=
  ((compare f.value.isSome.toNat g.value.isSome.toNat).then (compare f.name g.name)).then
    (optionOrder Value.order f.value g.value)

end Field

namespace Directive

def order (d e : Directive) : Ordering :=
  let length := fun d : Directive => d.target.map fun t => Text.byteLength t.toList
  let presence :=
    (compare d.span.isSome.toNat e.span.isSome.toNat).then
      (compare d.field.isSome.toNat e.field.isSome.toNat)
  let texts :=
    ((optionOrder compare d.target e.target).then (optionOrder compare d.span e.span)).then
      (optionOrder Field.order d.field e.field)
  ((optionOrder compare (length d) (length e)).then presence).then texts

def insert (d : Directive) : List Directive → List Directive
  | [] => [d]
  | e :: rest =>
      match d.order e with
      | .gt => d :: e :: rest
      | .eq => d :: rest
      | .lt => e :: insert d rest

def isGeneral (d : Directive) : Bool :=
  d.span.isNone && d.field.all (·.value.isNone)

def isSpecial (d : Directive) : Bool :=
  d.span.isSome || d.field.isSome

end Directive

end LogFilter

/-- Which of a program's messages are written. Directives on fields without a value are both general
and special. -/
structure LogFilter where
  general : List LogFilter.Directive
  special : List LogFilter.Directive
deriving DecidableEq

namespace LogFilter

def ofDirectives (ds : List Directive) : LogFilter :=
  let sorted := fun ds : List Directive => ds.foldl (fun sorted d => d.insert sorted) []
  { general := sorted (ds.filter Directive.isGeneral)
    special := sorted (ds.filter Directive.isSpecial) }

def text (f : LogFilter) : String :=
  ",".intercalate ((f.general ++ f.special).map Directive.text)

def usual : LogFilter :=
  ofDirectives [{ Directive.everything with level := .info }]

def parts (text : String) : List (List Char) :=
  ((text.splitOn ",").filter (· != "")).map String.toList

/-- Reads directives between commas. If one of them is malformed, all of them are left for the usual
filter; only a torn directive in front of it is a defect. -/
def ofText (text : String) : Except Defect LogFilter :=
  match (parts text).mapM Directive.ofText with
  | .ok ds => .ok (ofDirectives ds)
  | .error .malformed => .ok usual
  | .error d => .error d

end LogFilter

end Barter
