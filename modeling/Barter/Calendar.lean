import Barter.Text

namespace Barter

/-- A second that the calendar reaches, counted from the start of 1970 (UTC); the years end at
262142. -/
structure Instant where
  seconds : UInt64
  le_last : seconds ≤ 8210266876799
deriving DecidableEq

structure Date where
  year : Nat
  month : Nat
  day : Nat
deriving DecidableEq

/-- The day of the Gregorian calendar that comes `days` days after 1 January 1970. Years are counted
from March, so that the leap day is their last; 400 of them have 146097 days. -/
def Date.ofDays (days : Nat) : Date :=
  let shifted := days + 719468
  let cycle := shifted / 146097
  let dayOfCycle := shifted % 146097
  let yearOfCycle :=
    (dayOfCycle - dayOfCycle / 1460 + dayOfCycle / 36524 - dayOfCycle / 146096) / 365
  let dayOfYear := dayOfCycle - (365 * yearOfCycle + yearOfCycle / 4 - yearOfCycle / 100)
  let monthFromMarch := (5 * dayOfYear + 2) / 153
  let day := dayOfYear - (153 * monthFromMarch + 2) / 5 + 1
  let month := if monthFromMarch < 10 then monthFromMarch + 3 else monthFromMarch - 9
  let year := yearOfCycle + 400 * cycle
  ⟨if month ≤ 2 then year + 1 else year, month, day⟩

def Date.text (d : Date) : String :=
  let sign := if 9999 < d.year then "+" else ""
  s!"{sign}{Text.padded 4 d.year}-{Text.padded 2 d.month}-{Text.padded 2 d.day}"

namespace Instant

def ofSeconds? (seconds : UInt64) : Option Instant :=
  if h : seconds ≤ 8210266876799 then some ⟨seconds, h⟩ else none

def text (t : Instant) : String :=
  let n := t.seconds.toNat
  let date := Date.ofDays (n / 86400)
  let clock := n % 86400
  let hour := Text.padded 2 (clock / 3600)
  let minute := Text.padded 2 (clock / 60 % 60)
  let second := Text.padded 2 (clock % 60)
  s!"{date.text}T{hour}:{minute}:{second}+00:00"

end Instant

end Barter
