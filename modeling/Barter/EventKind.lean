namespace Barter

inductive EventKind where
  | make
  | bump
  | take
  | kill
deriving DecidableEq

def EventKind.name : EventKind → String
  | .make => "LogMake"
  | .bump => "LogBump"
  | .take => "LogTake"
  | .kill => "LogKill"

theorem EventKind.name_injective {k l : EventKind} (h : k.name = l.name) : k = l := by
  cases k <;> cases l <;> simp_all [EventKind.name]

end Barter
