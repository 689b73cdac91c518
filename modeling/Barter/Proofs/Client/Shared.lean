import Barter.Proofs.Client.Lookup
import Barter.Proofs.Sandbox.Ids
import Barter.Proofs.Sandbox.Queries

namespace Barter

namespace Sandbox

def asked (s : Sandbox) : Sandbox :=
  { s with queries := s.queries + 1 }

theorem call_answer (s : Sandbox) {q : Query} (h : q.isFor s.kind = true) :
    s.call s.market q.method q.args = (.ok (s.answer q), s.asked) := by
  rw [call, if_neg (fun hne => hne rfl), Query.ofCall_args h]
  rfl

end Sandbox

/-- A sandbox that others use as well: `coming` is what they do to it before each of the next
requests is served. -/
structure Shared where
  sandbox : Sandbox
  coming : List (List Move)

namespace Shared

def met (x : Shared) : Sandbox :=
  x.sandbox.run (x.coming.headD [])

def serve {ε α : Type} (step : Step Sandbox ε α) : Step Shared ε α := fun x =>
  let (result, after) := step x.met
  (result, ⟨after, x.coming.tail⟩)

def ledger : Ledger Shared where
  call contract method args := serve (Sandbox.ledger.call contract method args)
  submit intent := serve (Sandbox.ledger.submit intent)
  pastLogs contract event blocks := serve (Sandbox.ledger.pastLogs contract event blocks)
  subscribe contract event := serve (Sandbox.ledger.subscribe contract event)
  approve token spender spenderName := serve (Sandbox.ledger.approve token spender spenderName)

theorem call_answer {x : Shared} {market : Address} (hmarket : x.sandbox.market = market) {q : Query}
    (h : q.isFor x.met.kind = true) :
    ledger.call market q.method q.args x =
      (.ok (x.met.answer q), ⟨x.met.asked, x.coming.tail⟩) := by
  have hmet : x.met.market = market := (Sandbox.market_run _ _).trans hmarket
  have hcall : Sandbox.ledger.call market q.method q.args x.met =
      (.ok (x.met.answer q), x.met.asked) := by
    rw [← hmet]
    exact x.met.call_answer h
  change serve (Sandbox.ledger.call market q.method q.args) x = _
  rw [serve, hcall]

def after (s : Sandbox) (coming : List (List Move)) (n : Nat) : Shared :=
  ⟨(s.run (coming.take n).flatten).withQueries (s.queries + n), coming.drop n⟩

variable {s : Sandbox} {coming : List (List Move)} {n : Nat}

theorem met_after :
    (after s coming n).met =
      (s.run (coming.take (n + 1)).flatten).withQueries (s.queries + n) := by
  have hnext : (coming.take n).flatten ++ (coming.drop n).headD [] =
      (coming.take (n + 1)).flatten := by
    rw [List.take_add_one, List.headD_eq_head?_getD, List.head?_drop, List.flatten_append]
    cases coming[n]? <;> simp
  rw [met, after, Sandbox.run_withQueries, ← Sandbox.run_append, hnext]

theorem served_after :
    (⟨(after s coming n).met.asked, (after s coming n).coming.tail⟩ : Shared) =
      after s coming (n + 1) := by
  rw [met_after, after, after, List.tail_drop]
  rfl

theorem submit_after (intent : Intent) :
    (ledger.submit intent (after s coming n)).1 =
      ((s.run (coming.take (n + 1)).flatten).submit intent).1 := by
  have hmet : (ledger.submit intent (after s coming n)).1 =
      ((after s coming n).met.submit intent).1 := rfl
  rw [hmet, met_after, Sandbox.submit_withQueries]

theorem call_after {q : Query} (h : ∀ kind, q.isFor kind = true) :
    ledger.call s.market q.method q.args (after s coming n) =
      (.ok ((s.run (coming.take (n + 1)).flatten).answer q), after s coming (n + 1)) := by
  have hmarket : (after s coming n).sandbox.market = s.market := s.market_run _
  rw [call_answer hmarket (h _), served_after, met_after]
  cases q <;> rfl

end Shared

inductive Turn where
  | move (m : Move)
  | order (id : OrderId)
  | orders (coming : List (List Move))

namespace Turn

def moves : Turn → List Move
  | move m => [m]
  | order _ => []
  | orders coming => coming.flatten

def play (market : Address) (v : View Sandbox) : Turn → View Sandbox
  | move m => { v with ledger := v.ledger.move m }
  | order id => (Client.order Sandbox.ledger market id v).2
  | orders coming =>
      let w := (Client.orders Shared.ledger market ⟨v.absent, ⟨v.ledger, coming⟩⟩).2
      ⟨w.absent, w.ledger.sandbox⟩

def playAll (market : Address) (v : View Sandbox) (turns : List Turn) : View Sandbox :=
  turns.foldl (play market) v

/-- The count of ids never starts again from zero, whatever is done while the turns are played. -/
def AllSuffice (market : Address) (v : View Sandbox) : List Turn → Prop
  | [] => True
  | turn :: rest => v.ledger.IdsSuffice turn.moves ∧ AllSuffice market (turn.play market v) rest

theorem allSuffice_append {market : Address} {v : View Sandbox} {a b : List Turn} :
    AllSuffice market v (a ++ b) ↔
      AllSuffice market v a ∧ AllSuffice market (playAll market v a) b := by
  induction a generalizing v with
  | nil => simp [AllSuffice, playAll]
  | cons turn a ih => simp [AllSuffice, ih, playAll, and_assoc]

theorem allSuffice_singleton {market : Address} {v : View Sandbox} {turn : Turn} :
    AllSuffice market v [turn] ↔ v.ledger.IdsSuffice turn.moves :=
  and_iff_left trivial

end Turn

/-- At some turn the client looked the id up before the market had given it out. -/
def AskedEarly (market : Address) (v : View Sandbox) (turns : List Turn) (id : OrderId) : Prop :=
  ∃ before after, turns = before ++ .order id :: after ∧
    (Turn.playAll market v before).ledger.lastId < id

end Barter
