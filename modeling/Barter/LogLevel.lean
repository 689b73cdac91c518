import Barter.Text

namespace Barter

inductive LogLevel where
  | off
  | error
  | warn
  | info
  | debug
  | trace
deriving DecidableEq

namespace LogLevel

def name : LogLevel → String
  | .off => "off"
  | .error => "error"
  | .warn => "warn"
  | .info => "info"
  | .debug => "debug"
  | .trace => "trace"

def all : List LogLevel :=
  [.off, .error, .warn, .info, .debug, .trace]

def ofNumber? : List Char → Option LogLevel
  | '+' :: cs => (Text.natural? cs).bind (all[·]?)
  | cs => (Text.natural? cs).bind (all[·]?)

def ofName? (cs : List Char) : Option LogLevel :=
  all.find? fun l => l.name.toList = cs.map Char.toLower

def ofText? (cs : List Char) : Option LogLevel :=
  (ofNumber? cs).or (ofName? cs)

theorem ofName?_name (l : LogLevel) : ofName? l.name.toList = some l := by
  cases l <;> decide

end LogLevel

end Barter
