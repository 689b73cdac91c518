import Barter.Ledger

namespace Barter

structure Playback where
  calls : List (Except Fault (List Value))
  submits : List (Except Fault Pending)
  pastLogs : List (Except Fault (List Log))
  streams : List (Except Fault (List Log))
  approvals : List (Except Fault Unit)

namespace Playback

def next {α : Type} : List (Except Fault α) → Except Fault α × List (Except Fault α)
  | [] => (.error (.transport .exhausted), [])
  | answer :: rest => (answer, rest)

def ledger : Ledger Playback where
  call _ _ _ p :=
    let (answer, rest) := next p.calls
    (answer, { p with calls := rest })
  submit _ p :=
    let (answer, rest) := next p.submits
    (answer.mapError .fault, { p with submits := rest })
  pastLogs _ _ _ p :=
    let (answer, rest) := next p.pastLogs
    (answer, { p with pastLogs := rest })
  subscribe _ _ p :=
    let (answer, rest) := next p.streams
    (answer.map .ended, { p with streams := rest })
  approve _ _ _ p :=
    let (answer, rest) := next p.approvals
    (answer, { p with approvals := rest })

end Playback

end Barter
