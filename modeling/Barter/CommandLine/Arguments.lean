import Barter.Decimal.Reader
import Barter.Offer

namespace Barter.CommandLine

inductive Usage where
  | help
  | helpForNothing
  | version
  | unknownSubcommand
  | missingSubcommand
  | unknownArgument
  | missingValue
  | surplusValue
  | badValue
  | missingArgument
  | repeated
deriving DecidableEq

def helpText : String :=
  "otc-market - inspect OTC order markets

Usage: otc-market [OPTIONS] <COMMAND>

Commands:
  orders    List active orders with their prices
  position  Estimate the insertion position for a new order (matching markets)
  last-id   Print the id of the last order created
  help      Print this message or the help of the given subcommand(s)

Options:
      --verbose <VERBOSE>    Set the verbosity level (error, warn, info, debug, trace)
      --snapshot <SNAPSHOT>  Market snapshot to load (overrides OTC_SNAPSHOT)
  -h, --help                 Print help
  -V, --version              Print version"

def Usage.message : Usage → String
  | .help => helpText
  | .helpForNothing => helpText
  | .version => "otc-market 0.1.0"
  | .unknownSubcommand => "error: unrecognized subcommand"
  | .missingSubcommand => "error: a subcommand is required"
  | .unknownArgument => "error: unexpected argument found"
  | .missingValue => "error: a value is required for a flag"
  | .surplusValue => "error: unexpected value for a flag"
  | .badValue => "error: invalid value for a flag"
  | .missingArgument => "error: a required argument was not provided"
  | .repeated => "error: a flag cannot be used multiple times"

inductive Flag where
  | verbose
  | snapshot
  | payToken
  | payAmount
  | buyToken
  | buyAmount
deriving DecidableEq

inductive Subcommand where
  | orders
  | position
  | lastId
deriving DecidableEq

def Subcommand.ofName? : String → Option Subcommand
  | "orders" => some .orders
  | "position" => some .position
  | "last-id" => some .lastId
  | _ => none

def flag? (level : Option Subcommand) (name : String) : Option Flag :=
  match name, level with
  | "verbose", _ => some .verbose
  | "snapshot", _ => some .snapshot
  | "pay-token", some .position => some .payToken
  | "pay-amount", some .position => some .payAmount
  | "buy-token", some .position => some .buyToken
  | "buy-amount", some .position => some .buyAmount
  | _, _ => none

structure Given where
  verbose : Option String := none
  snapshot : Option String := none
  payToken : Option Address := none
  payAmount : Option Wad := none
  buyToken : Option Address := none
  buyAmount : Option Wad := none

variable {α : Type}

def path (text : String) : Except Usage String :=
  if text.isEmpty then .error .missingValue else .ok text

def token (text : String) : Except Usage Address :=
  match Address.ofText? text with
  | some a => .ok a
  | none => .error .badValue

def amount (text : String) : Except Usage Wad :=
  (Wad.ofText text).mapError fun _ => .badValue

def once (old : Option α) (value : Except Usage α) : Except Usage (Option α) :=
  if old.isSome then .error .repeated else some <$> value

def Given.put (g : Given) (f : Flag) (text : String) : Except Usage Given := do
  match f with
  | .verbose => return { g with verbose := ← once g.verbose (.ok text) }
  | .snapshot => return { g with snapshot := ← once g.snapshot (path text) }
  | .payToken => return { g with payToken := ← once g.payToken (token text) }
  | .payAmount => return { g with payAmount := ← once g.payAmount (amount text) }
  | .buyToken => return { g with buyToken := ← once g.buyToken (token text) }
  | .buyAmount => return { g with buyAmount := ← once g.buyAmount (amount text) }

/-- The last flag and the word after it, which is looked at only when the next flag or the end
comes. -/
inductive Last where
  | none
  | waiting (f : Flag)
  | holding (f : Flag) (text : String)

def Given.settle (g : Given) : Last → Except Usage Given
  | .none => .ok g
  | .waiting _ => .error .missingValue
  | .holding f text => g.put f text

inductive Shape where
  | dashes
  | long (name : String) (value : Option String)
  | short (letter : Char)
  | plain

def Shape.of (text : String) : Shape :=
  match text.toList with
  | ['-', '-'] => .dashes
  | '-' :: '-' :: rest =>
      let name := String.ofList (rest.takeWhile (· ≠ '='))
      match rest.dropWhile (· ≠ '=') with
      | [] => .long name none
      | _ :: value => .long name (some (String.ofList value))
  | '-' :: c :: _ => .short c
  | _ => .plain

def surplus (level : Option Subcommand) : Usage :=
  if level.isSome then .unknownArgument else .unknownSubcommand

def isSubcommand (word : String) : Bool :=
  word = "help" || (Subcommand.ofName? word).isSome

def helpOn : List String → Usage
  | [] => .help
  | [word] => if isSubcommand word then .help else .unknownSubcommand
  | _ => .unknownSubcommand

structure Progress where
  given : Given := {}
  last : Last := .none
  dashes : Bool := false

def Progress.settle (p : Progress) : Except Usage Given :=
  p.given.settle p.last

def Progress.instead (p : Progress) (u : Usage) : Except Usage Progress := do
  let _ ← p.settle
  .error u

def Progress.long (p : Progress) (level : Option Subcommand) (name : String)
    (value : Option String) : Except Usage Progress :=
  if name = "help" || (name = "version" && level.isNone) then
    if value.isSome then .error .surplusValue
    else p.instead (if name = "help" then .help else .version)
  else
    match flag? level name with
    | none => .error .unknownArgument
    | some f => do
        let given ← p.settle
        match value with
        | some text => return { p with given := ← given.put f text, last := .none }
        | none => return { p with given := given, last := .waiting f }

def Progress.short (p : Progress) (level : Option Subcommand) (letter : Char) :
    Except Usage Progress :=
  if letter = 'h' then p.instead .help
  else if letter = 'V' && level.isNone then p.instead .version
  else .error .unknownArgument

def Progress.step (p : Progress) (level : Option Subcommand) (word : String) :
    Except Usage Progress :=
  if p.dashes then
    if level.isNone && isSubcommand word then .error .unknownArgument else .error (surplus level)
  else
    match Shape.of word, p.last with
    | .dashes, _ => .ok { p with dashes := true }
    | .long name value, _ => p.long level name value
    | .short letter, _ => p.short level letter
    | .plain, .waiting f => .ok { p with last := .holding f word }
    | .plain, _ => .error (surplus level)

def Progress.isOpen (p : Progress) : Bool :=
  match p.last with
  | .waiting _ => false
  | _ => !p.dashes

def outer (p : Progress) : List String → Except Usage (Progress × Option (Subcommand × List String))
  | [] => .ok (p, none)
  | word :: rest =>
      if p.isOpen && word = "help" then .error (helpOn rest)
      else
        match if p.isOpen then Subcommand.ofName? word else none with
        | some c => .ok (p, some (c, rest))
        | none => do outer (← p.step none word) rest

inductive Task where
  | orders
  | position (terms : Terms)
  | lastId

structure Invocation where
  task : Task
  verbose : String
  snapshot : Option String

def Subcommand.complete (c : Subcommand) (g : Given) : Except Usage Task :=
  match c with
  | .orders => .ok .orders
  | .lastId => .ok .lastId
  | .position =>
      match g.payToken, g.payAmount, g.buyToken, g.buyAmount with
      | some payToken, some payAmount, some buyToken, some buyAmount =>
          .ok (.position { payToken, payAmount, buyToken, buyAmount })
      | _, _, _, _ => .error .missingArgument

def Given.isEmpty (g : Given) : Bool :=
  g.verbose.isNone && g.snapshot.isNone

/-- Reads the words after the program's name. A flag behind the subcommand wins over one before it,
and what is wrong behind the subcommand is reported first. -/
def Invocation.ofWords (words : List String) : Except Usage Invocation := do
  let (before, found) ← outer {} words
  match found with
  | some (c, rest) =>
      let behind ← rest.foldlM (fun p word => p.step (some c) word) ({} : Progress)
      let inner ← behind.settle
      let task ← c.complete inner
      let top ← before.settle
      return ⟨task, (inner.verbose.or top.verbose).getD "info", inner.snapshot.or top.snapshot⟩
  | none =>
      let top ← before.settle
      if top.isEmpty then .error .helpForNothing else .error .missingSubcommand

end Barter.CommandLine
