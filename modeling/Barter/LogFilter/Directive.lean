import Barter.LogFilter.Value
import Barter.LogLevel

namespace Barter.LogFilter

structure Field where
  name : String
  value : Option Value
deriving DecidableEq

structure Directive where
  target : Option String
  span : Option String
  field : Option Field
  level : LogLevel
deriving DecidableEq

/-- A directive is malformed, or one of its parts begins (`start`) or ends at a place within a
character. Places are counted in bytes. -/
inductive Defect where
  | malformed
  | torn (start : Bool) (place first last : Nat) (c : Char)
deriving DecidableEq

def around (place start : Nat) : List Char → Option (Nat × Nat × Char)
  | [] => none
  | c :: rest =>
      let next := start + c.utf8Size
      if place < next then some (start, next, c) else around place next rest

def quotedChar (c : Char) : String :=
  if Text.isBlank c && 128 ≤ c.toNat then
    "'\\u\x7b" ++ String.ofList (Nat.toDigits 16 c.toNat) ++ "\x7d'"
  else "'" ++ c.toString ++ "'"

def Defect.message : Defect → String
  | .malformed => "invalid filter directive"
  | .torn start place first last c =>
      let side := if start then "start" else "end"
      s!"{side} byte index {place} is not a char boundary; it is inside " ++ quotedChar c ++
        s!" (bytes {first}..{last} of string)"

def tear (start : Bool) (place : Nat) (cs : List Char) : Defect :=
  match around place 0 cs with
  | some (first, last, c) => .torn start place first last c
  | none => .malformed

def cut (cs : List Char) (first last : Nat) : Except Defect String :=
  match Text.dropBytes? first cs with
  | none => .error (tear true first cs)
  | some rest =>
      match Text.takeBytes? (last - first) rest with
      | none => .error (tear false last cs)
      | some part => .ok (String.ofList part)

namespace Field

def ofText (text : String) : Except Defect Field :=
  match text.splitOn "=" with
  | [] | [""] => .error .malformed
  | [name] => .ok ⟨name, none⟩
  | name :: value :: _ =>
      match Value.ofText? value.toList with
      | some v => .ok ⟨name, some v⟩
      | none => .error .malformed

def text (f : Field) : String :=
  match f.value with
  | none => f.name
  | some v => f.name ++ "=" ++ v.text

end Field

namespace Directive

def everything : Directive :=
  { target := none, span := none, field := none, level := .trace }

def withLevel (d : Directive) (text : String) : Except Defect Directive :=
  if text.isEmpty then .ok { d with level := .trace }
  else
    match LogLevel.ofText? text.toList with
    | some level => .ok { d with level := level }
    | none => .error .malformed

def ending (whole : List Char) (d : Directive) (place : Nat) :
    List Char → Except Defect Directive
  | [] => .ok d
  | '=' :: _ => do d.withLevel (← cut whole (place + 1) (Text.byteLength whole))
  | _ => .error .malformed

def fields (whole : List Char) (d : Directive) (place : Nat) (cs : List Char) :
    Except Defect Directive := do
  let last := place + Text.byteLength (cs.takeWhile (· != '\x7d'))
  match cs.dropWhile (· != '\x7d') with
  | _ :: rest => do
      let field ← Field.ofText (← cut whole place last)
      match rest with
      | ']' :: rest => ending whole { d with field := some field } (last + 2) rest
      | _ => .error .malformed
  | [] => .error .malformed

def spans (whole : List Char) (d : Directive) (place : Nat) (cs : List Char) :
    Except Defect Directive := do
  let isInner := fun c => c != ']' && c != '\x7b'
  let last := place + Text.byteLength (cs.takeWhile isInner)
  match cs.dropWhile isInner with
  | ']' :: rest => ending whole { d with span := some (← cut whole place last) } (last + 1) rest
  | _ :: rest =>
      let name ← cut whole place last
      fields whole { d with span := if name.isEmpty then none else some name } (last + 1) rest
  | [] => .error .malformed

/-- Reads a directive. The places of its parts are counted in the text without the blanks around it,
but the parts are cut from the text with them. -/
def ofText (whole : List Char) : Except Defect Directive := do
  let isInner := fun c => c != '=' && c != '['
  let cs := Text.trim whole
  let last := Text.byteLength (cs.takeWhile isInner)
  let opens := fun c => c = '-' || c = ':' || c = '_' || Text.isAlphanumeric c
  match cs, cs.dropWhile isInner with
  | [], _ => .error .malformed
  | '[' :: rest, _ => spans whole everything 1 rest
  | c :: _, [] =>
      if !opens c then .error .malformed
      else
        match LogLevel.ofText? whole with
        | some level => .ok { everything with level := level }
        | none => .ok { everything with target := some (String.ofList whole) }
  | c :: _, mark :: rest =>
      if !opens c then .error .malformed
      else do
        let d := { everything with target := some (← cut whole 0 last) }
        if mark = '[' then spans whole d (last + 1) rest
        else d.withLevel (← cut whole (last + 1) (Text.byteLength whole))

def place (d : Directive) : String :=
  match d.span, d.field with
  | none, none => ""
  | some span, none => "[" ++ span ++ "]"
  | span, some field => "[" ++ span.getD "" ++ "\x7b" ++ field.text ++ "\x7d]"

def text (d : Directive) : String :=
  let scope := d.target.getD "" ++ d.place
  if d.target.isNone && d.span.isNone && d.field.isNone then d.level.name
  else scope ++ "=" ++ d.level.name

end Directive

end Barter.LogFilter
