import Barter.Json.Refusal

namespace Barter.Json

def byte (cs : List Char) : Option (Json × List Char) :=
  match numberLiteral cs with
  | some (.nat n, rest) => if n < 256 then some (.nat n, rest) else none
  | _ => none

def closing : List Char → Option (List Char)
  | ']' :: after => some after
  | _ => none

/-- Reads the rest of an array that has all its bytes. One more byte is too much, but a reader that
refuses what stands there may stop right before the closing bracket. -/
def bytesEnd (cs : List Char) : Option (List Char) :=
  match skipGap cs with
  | ',' :: rest =>
      let extra := skipGap rest
      if (byte extra).isSome then none else closing (skipGap (refuse extra))
  | cs => closing cs

def bytes : Nat → List Char → Option (List Json × List Char)
  | 0, cs => (bytesEnd cs).map fun after => ([], after)
  | n + 1, cs =>
      match skipGap cs with
      | ',' :: rest => do
          let (b, rest) ← byte (skipGap rest)
          let (bs, after) ← bytes n rest
          return (b :: bs, after)
      | _ => none

def objectOf (members : List (Option String × Json)) : Json :=
  match members.mapM fun (key, v) => key.map fun key => (key, v) with
  | some members => .obj members
  | none => .garbled

mutual

/-- Reads a value that stands at the head of the text. Every level of nesting takes two units of
`fuel`, and so does every item of an array or an object. -/
def value (layout : Layout) (fuel : Nat) (cs : List Char) : Option (Json × List Char) :=
  match fuel with
  | 0 => none
  | fuel + 1 =>
      match cs with
      | '"' :: rest =>
          (stringLiteral rest).map fun (text, after) => ((text.map Json.str).getD .garbled, after)
      | '[' :: rest =>
          match layout, skipGap rest with
          | .bytes n, inside => (bytes n (',' :: inside)).map fun (vs, after) => (.arr vs, after)
          | _, ']' :: after => some (.arr [], after)
          | _, inside => (items layout 0 fuel inside).map fun (vs, after) => (.arr vs, after)
      | '{' :: rest =>
          match skipGap rest with
          | '}' :: after => some (.obj [], after)
          | inside => (members layout fuel inside).map fun (ms, after) => (objectOf ms, after)
      | 'n' :: _ => word "null" .null cs
      | 't' :: _ => word "true" (.bool true) cs
      | 'f' :: _ => word "false" (.bool false) cs
      | _ => numberLiteral cs

def items (layout : Layout) (i fuel : Nat) (cs : List Char) : Option (List Json × List Char) :=
  match fuel with
  | 0 => none
  | fuel + 1 => do
      let (v, rest) ← value (layout.item i) fuel cs
      match skipGap rest with
      | ',' :: rest =>
          let (vs, after) ← items layout (i + 1) fuel (skipGap rest)
          return (v :: vs, after)
      | ']' :: after => return ([v], after)
      | _ => none

def members (layout : Layout) (fuel : Nat) (cs : List Char) :
    Option (List (Option String × Json) × List Char) :=
  match fuel with
  | 0 => none
  | fuel + 1 =>
      match cs with
      | '"' :: rest => do
          let (key, rest) ← stringLiteral rest
          match skipGap rest with
          | ':' :: rest =>
              let (v, rest) ← value ((key.map layout.member).getD .plain) fuel (skipGap rest)
              match skipGap rest with
              | ',' :: rest =>
                  let (ms, after) ← members layout fuel (skipGap rest)
                  return ((key, v) :: ms, after)
              | '}' :: after => return ([(key, v)], after)
              | _ => none
          | _ => none
      | _ => none

end

def read? (layout : Layout) (text : String) : Option Json := do
  let cs := text.toList
  let (v, rest) ← value layout (2 * cs.length + 2) (skipGap cs)
  if (skipGap rest).isEmpty then some v else none

end Barter.Json
