import Barter.Failure

namespace Barter

/-- The three kinds of market contract; each has what the one before it has. -/
inductive MarketKind where
  | simple
  | expiring
  | matching
deriving DecidableEq

namespace MarketKind

def name : MarketKind → String
  | .simple => "simple"
  | .expiring => "expiring"
  | .matching => "matching"

def title : MarketKind → String
  | .simple => "Simple"
  | .expiring => "Expiring"
  | .matching => "Matching"

def hasExpiry (k : MarketKind) : Bool :=
  k != .simple

def isMatching (k : MarketKind) : Bool :=
  k == .matching

def all : List MarketKind :=
  [.simple, .expiring, .matching]

def ofName? (name : String) : Option MarketKind :=
  all.find? fun k => k.name = name

theorem ofName?_name (k : MarketKind) : ofName? k.name = some k := by
  cases k <;> decide

def ofText (text : String) : Except Failure MarketKind :=
  let name := text.map Char.toLower
  match ofName? name with
  | some k => .ok k
  | none => .error (.invalidArgument (.unknownKind name))

end MarketKind

end Barter
