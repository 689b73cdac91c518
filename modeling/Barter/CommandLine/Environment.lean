import Barter.Text.Alphanumeric

namespace Barter.CommandLine

abbrev Environment := List (String × String)

namespace Environment

def addMissing (env : Environment) (name value : String) : Environment :=
  if (env.lookup name).isSome then env else env ++ [(name, value)]

def expand (env : Environment) (name : List Char) : List Char :=
  ((env.lookup (String.ofList name)).getD "").toList

/-- Where the reading of a value stands: in plain text or between double quotes (`quoted`), after a
backslash there, between single quotes, after a blank that ends the value, or in the name of a
variable after a dollar sign, with or without braces. -/
inductive Mode where
  | text (quoted : Bool)
  | escaped (quoted : Bool)
  | single
  | ended
  | name (quoted : Bool) (chars : List Char)
  | braced (quoted : Bool) (chars : List Char)

def Mode.close (env : Environment) : Mode → Option (List Char)
  | .text quoted => if quoted then none else some []
  | .escaped quoted => if quoted then none else some []
  | .single => none
  | .ended => some []
  | .name quoted chars => if quoted then none else some (env.expand chars)
  | .braced _ _ => none

def unescape? (c : Char) : Option Char :=
  if c = 'n' then some '\n'
  else if c = '\\' || c = '\'' || c = '"' || c = '$' || c = ' ' then some c
  else none

def isBreak (c : Char) : Bool :=
  c = ' ' || c = '\t'

def Mode.next (env : Environment) (c : Char) : Mode → Option (List Char × Mode)
  | .ended => if isBreak c then some ([], .ended) else none
  | .escaped quoted => (unescape? c).map fun c => ([c], .text quoted)
  | .single => if c = '\'' then some ([], .text false) else some ([c], .single)
  | .name quoted chars =>
      if Text.isAlphanumeric c then some ([], .name quoted (chars ++ [c]))
      else if c = '\x7b' && chars.isEmpty then some ([], .braced quoted [])
      else if c = '$' then some (env.expand chars, .name quoted [])
      else some (env.expand chars ++ [c], .text quoted)
  | .braced quoted chars =>
      if c = '\x7d' then some (env.expand chars, .text quoted)
      else some ([], .braced quoted (chars ++ [c]))
  | .text quoted =>
      if c = '$' then some ([], .name quoted [])
      else if c = '"' then some ([], .text !quoted)
      else if c = '\\' then some ([], .escaped quoted)
      else if quoted then some ([c], .text quoted)
      else if c = '\'' then some ([], .single)
      else if isBreak c then some ([], .ended)
      else some ([c], .text quoted)

def Mode.isEnded : Mode → Bool
  | .ended => true
  | _ => false

def value (env : Environment) (mode : Mode) : List Char → Option (List Char)
  | [] => mode.close env
  | c :: rest =>
      if mode.isEnded && c = '#' then some []
      else do
        let (out, mode) ← mode.next env c
        return out ++ (← value env mode rest)

def key (cs : List Char) : Option (String × List Char) :=
  let isInner := fun c : Char => c.isAlphanum || c = '_' || c = '.'
  match cs with
  | [] => none
  | c :: _ =>
      if c.isAlpha || c = '_' then
        some (String.ofList (cs.takeWhile isInner), Text.trimStart (cs.dropWhile isInner))
      else none

def afterEquals : List Char → Option (List Char)
  | '=' :: rest => some (Text.trimStart rest)
  | _ => none

def assignment (cs : List Char) : Option (String × List Char) := do
  let (name, rest) ← key cs
  let rest ← afterEquals rest
  return (name, rest)

def exported (cs : List Char) : Option (String × List Char) := do
  let (first, rest) ← key cs
  if first = "export" then assignment rest else none

def definition (env : Environment) (cs : List Char) : Option (String × String) := do
  let (name, rest) ← (assignment cs).or (exported cs)
  if rest.isEmpty || rest.head? = some '#' then return (name, "")
  else
    let chars ← value env (.text false) rest
    return (name, String.ofList chars)

def load (env : Environment) : List (List Char) → Environment
  | [] => env
  | line :: rest =>
      let cs := Text.trim line
      if cs.isEmpty || cs.head? = some '#' then load env rest
      else
        match definition env cs with
        | some (name, value) => load (env.addMissing name value) rest
        | none => env

def loadText (env : Environment) (text : String) : Environment :=
  load env ((text.splitOn "\n").map String.toList)

end Environment

inductive Unconfigured where
  | missing
  | empty
deriving DecidableEq

def variableName : String := "OTC_SNAPSHOT"

def Unconfigured.message : Unconfigured → String
  | .missing => s!"No market snapshot given: pass --snapshot or set {variableName}"
  | .empty => s!"{variableName} is set but empty"

def snapshotPath (flag : Option String) (env : Environment) : Except Unconfigured String :=
  match flag, env.lookup variableName with
  | some path, _ => .ok path
  | none, none => .error .missing
  | none, some value =>
      match Text.trim value.toList with
      | [] => .error .empty
      | cs => .ok (String.ofList cs)

end Barter.CommandLine
