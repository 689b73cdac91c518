import Barter.Text.Alphanumeric

namespace Barter.LogFilter.Pattern

/-- How a part of a pattern is read: blanks and comments do not count (`verbose`), letters stand for
both cases (`fold`), and it matches bytes rather than characters (`bytes`). -/
structure Options where
  verbose : Bool
  fold : Bool
  bytes : Bool

def skipVerbose (inComment : Bool) : List Char → List Char
  | [] => []
  | c :: rest =>
      if inComment then skipVerbose (c != '\n') rest
      else if Text.isBlank c then skipVerbose false rest
      else if c = '#' then skipVerbose true rest
      else c :: rest

def skip (o : Options) (cs : List Char) : List Char :=
  if o.verbose then skipVerbose false cs else cs

inductive Escape where
  | literal (c : Char)
  | digits
  | others
  | edge
  | wordEdge

def literalIsValid (o : Options) (c : Char) : Bool :=
  !o.fold || (o.bytes && c.toNat < 128)

/-- A class of digits, blanks or word characters is known among bytes only, and what is not in one
would match bytes that are no text. -/
def Escape.isValid (o : Options) : Escape → Bool
  | .literal c => literalIsValid o c
  | .digits => o.bytes
  | .others => false
  | .edge => true
  | .wordEdge => o.bytes

def classLiteralIsValid (o : Options) (c : Char) : Bool :=
  !o.bytes || c.toNat < 128

def Escape.isValidInClass (o : Options) : Escape → Bool
  | .literal c => classLiteralIsValid o c
  | .digits => o.bytes
  | _ => false

def hexadecimal (o : Options) : Nat → Nat → List Char → Option (Nat × List Char)
  | 0, n, cs => some (n, cs)
  | count + 1, n, cs =>
      match skip o cs with
      | [] => none
      | c :: rest => (Text.digit? 16 c).bind fun d => hexadecimal o count (n * 16 + d) rest

def codePoint (o : Options) (count : Nat) (cs : List Char) : Option (Escape × List Char) := do
  let (n, rest) ← hexadecimal o count 0 cs
  if n.isValidChar && (!o.bytes || count != 2 || n < 128) then
    some (.literal (Char.ofNat n), rest)
  else none

def escape (o : Options) : List Char → Option (Escape × List Char)
  | [] => none
  | c :: rest =>
      match c with
      | 'x' => codePoint o 2 rest
      | 'u' => codePoint o 4 rest
      | 'U' => codePoint o 8 rest
      | 'd' | 's' | 'w' => some (.digits, rest)
      | 'D' | 'S' | 'W' => some (.others, rest)
      | 'A' | 'z' => some (.edge, rest)
      | 'b' | 'B' | '<' | '>' => some (.wordEdge, rest)
      | 'a' => some (.literal '\x07', rest)
      | 'f' => some (.literal '\x0c', rest)
      | 't' => some (.literal '\t', rest)
      | 'n' => some (.literal '\n', rest)
      | 'r' => some (.literal '\r', rest)
      | 'v' => some (.literal '\x0b', rest)
      | _ => if c.isAlphanum || 128 ≤ c.toNat then none else some (.literal c, rest)

def classNames : List String :=
  ["alnum", "alpha", "ascii", "blank", "cntrl", "digit", "graph", "lower", "print", "punct",
    "space", "upper", "word", "xdigit"]

def namedClass : List Char → Option (Bool × List Char)
  | '[' :: ':' :: rest =>
      let negated := rest.head? == some '^'
      let rest := if negated then rest.drop 1 else rest
      match rest.dropWhile (· != ':') with
      | ':' :: ']' :: after =>
          if classNames.contains (String.ofList (rest.takeWhile (· != ':'))) then
            some (negated, after)
          else none
      | _ => none
  | _ => none

def classOpening (o : Options) (cs : List Char) : Option (List Char) := do
  let cs := skip o cs
  let cs ←
    if cs.head? != some '^' then some cs
    else if o.bytes then none
    else some (skip o (cs.drop 1))
  let inside := cs.dropWhile fun c => c = '-' || (o.verbose && Text.isBlank c)
  let inside :=
    if inside.head? = some ']' && cs.head? = some ']' then skip o (inside.drop 1) else inside
  if inside.isEmpty then none else some inside

def classItem (o : Options) : List Char → Option (Escape × List Char)
  | [] => none
  | '\\' :: rest => escape o rest
  | c :: rest => some (.literal c, rest)

def classRange (o : Options) (cs : List Char) : Option (List Char) := do
  let (first, rest) ← classItem o cs
  let rest := skip o rest
  let next := (skip o (rest.drop 1)).head?
  if !first.isValidInClass o then none
  else if rest.head? != some '-' || next == some ']' || next == some '-' then some rest
  else
    let (last, rest) ← classItem o (skip o (rest.drop 1))
    match first, last with
    | .literal a, .literal b => if a ≤ b && classLiteralIsValid o b then some rest else none
    | _, _ => none

def classBody (o : Options) (fuel depth : Nat) (cs : List Char) : Option (List Char) :=
  match fuel with
  | 0 => none
  | fuel + 1 =>
      match skip o cs with
      | [] => none
      | ']' :: rest => if depth ≤ 1 then some rest else classBody o fuel (depth - 1) rest
      | '&' :: '&' :: rest => classBody o fuel depth rest
      | '-' :: '-' :: rest => classBody o fuel depth rest
      | '~' :: '~' :: rest => classBody o fuel depth rest
      | '[' :: rest =>
          match namedClass ('[' :: rest) with
          | some (negated, after) =>
              if negated && o.bytes then none else classBody o fuel depth after
          | none => (classOpening o rest).bind (classBody o fuel (depth + 1))
      | inside => (classRange o inside).bind (classBody o fuel depth)

def bracketed (o : Options) (cs : List Char) : Option (List Char) :=
  if o.fold && !o.bytes then none else (classOpening o cs).bind (classBody o (cs.length + 1) 1)

def options (seen : List Char) : List Char → Option (List Char × Char × List Char)
  | [] => none
  | c :: rest =>
      if c = ':' || c = ')' then
        if seen.getLast? = some '-' then none else some (seen, c, rest)
      else if ['-', 'i', 'm', 's', 'U', 'u', 'R', 'x'].contains c && !seen.contains c then
        options (seen ++ [c]) rest
      else none

def switched (given : List Char) (c : Char) (old : Bool) : Bool :=
  if given.contains c then (given.takeWhile (· != '-')).contains c else old

def Options.switch (o : Options) (given : List Char) : Options :=
  { verbose := switched given 'x' o.verbose
    fold := switched given 'i' o.fold
    bytes := !switched given 'u' !o.bytes }

def groupName (cs : List Char) : Option (String × List Char) :=
  let name := cs.takeWhile (· != '>')
  let isInner := fun c => c = '_' || c = '.' || c = '[' || c = ']' || Text.isAlphanumeric c
  let isFirst := fun c => c = '_' || (Text.isAlphanumeric c && !c.isDigit)
  match cs.dropWhile (· != '>') with
  | [] => none
  | _ :: after =>
      if name.head?.any isFirst && name.all isInner then some (String.ofList name, after) else none

/-- Where the reading of a pattern stands: the options, those outside each open group, the names of
groups so far, and whether there is something to repeat. -/
structure State where
  now : Options
  outer : List Options
  names : List String
  repeatable : Bool

def State.enter (s : State) (inner : Options) : State :=
  { s with now := inner, outer := s.now :: s.outer, repeatable := false }

def group (s : State) (cs : List Char) : Option (State × List Char) :=
  let named := fun rest => do
    let (name, after) ← groupName rest
    if s.names.contains name then none
    else some ({ s.enter s.now with names := name :: s.names }, after)
  match skip s.now cs with
  | '?' :: 'P' :: '<' :: rest => named rest
  | '?' :: '<' :: rest => named rest
  | '?' :: rest => do
      let (given, mark, after) ← options [] rest
      let inner := s.now.switch given
      if mark = ':' then some (s.enter inner, after)
      else if given.isEmpty then none
      else some ({ s with now := inner, repeatable := false }, after)
  | rest => some (s.enter s.now, rest)

def dropLazy : List Char → List Char
  | '?' :: rest => rest
  | rest => rest

/-- Reads the next part of a pattern. Nothing repeats a counted number of times: a value ends at the
brace that would close the count. -/
def step (s : State) (c : Char) (rest : List Char) : Option (State × List Char) :=
  let item := fun after => some ({ s with repeatable := true }, after)
  match c with
  | '(' => group s rest
  | ')' =>
      match s.outer with
      | [] => none
      | old :: outer => some ({ s with now := old, outer := outer, repeatable := true }, rest)
  | '|' => some ({ s with repeatable := false }, rest)
  | '*' | '+' | '?' => if s.repeatable then item (dropLazy rest) else none
  | '\x7b' => none
  | '[' => (bracketed s.now rest).bind item
  | '.' => if s.now.bytes then none else item rest
  | '^' | '$' => item rest
  | '\\' => do
      let (e, after) ← escape s.now rest
      if e.isValid s.now then item after else none
  | _ => if literalIsValid s.now c then item rest else none

def scan (fuel : Nat) (s : State) (cs : List Char) : Bool :=
  match fuel with
  | 0 => false
  | fuel + 1 =>
      match skip s.now cs with
      | [] => s.outer.isEmpty
      | c :: rest =>
          match step s c rest with
          | none => false
          | some (s, after) => scan fuel s after

def isValid (cs : List Char) : Bool :=
  scan (cs.length + 1) ⟨⟨false, false, false⟩, [], [], false⟩ cs

end Barter.LogFilter.Pattern
