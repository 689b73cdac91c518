import Barter.Proofs.Sandbox.Operation

namespace Barter

namespace Sandbox

inductive Executes (s : Sandbox) : Sandbox → List Log → Prop
  | made (terms : Terms) (h : s.Accepts terms) :
      Executes s (s.insert (s.offerOf terms)) [s.announce .make s.nextId (s.offerOf terms)]
  | bumped (id : OrderId) (offer : Offer) (h : s.offer? id = some offer) :
      Executes s s [s.announce .bump id offer]
  | taken (id : OrderId) (offer : Offer) (quantity given : Wad) (h : s.offer? id = some offer)
      (hfill : offer.IsFill quantity given) :
      Executes s (s.setOffer id (remainder? offer quantity given))
        [s.recordFill id offer quantity given]
  | killed (id : OrderId) (offer : Offer) (h : s.offer? id = some offer) :
      Executes s (s.setOffer id none) [s.announce .kill id offer]
  | configured (buyEnabled matchingEnabled : Bool) (whitelist : Std.ExtTreeSet TokenPair) :
      Executes s { s with buyEnabled, matchingEnabled, whitelist } []

structure SameBook (s t : Sandbox) : Prop where
  market : t.market = s.market
  offers : t.offers = s.offers
  lastId : t.lastId = s.lastId
  logs : t.logs = s.logs

theorem executes_of_create {s after : Sandbox} {terms : Terms} {logs : List Log}
    (h : s.create terms = .ok (after, logs)) : s.Executes after logs := by
  obtain ⟨haccepts, he⟩ := create_eq_ok_iff.mp h
  cases he
  exact .made terms haccepts

theorem executes_of_execute {s after : Sandbox} {c : Command} {logs : List Log}
    (h : s.execute c = .ok (after, logs)) : s.Executes after logs := by
  cases c with
  | make terms => exact executes_of_create h
  | offer terms position =>
      simp only [execute] at h
      split at h
      · cases h
      · exact executes_of_create h
  | bump id =>
      obtain ⟨offer, hoffer, he⟩ := bump_eq_ok_iff.mp h
      cases he
      exact .bumped id offer hoffer
  | take id quantity =>
      obtain ⟨_, offer, given, hoffer, hfill, he⟩ := take_eq_ok_iff.mp h
      cases he
      exact .taken id offer quantity given hoffer hfill
  | kill id =>
      obtain ⟨offer, hoffer, _, he⟩ := kill_eq_ok_iff.mp h
      cases he
      exact .killed id offer hoffer
  | setBuyEnabled on => cases h; exact .configured on s.matchingEnabled s.whitelist
  | setMatchingEnabled on => cases h; exact .configured s.buyEnabled on s.whitelist
  | whitelist pair =>
      simp only [execute] at h
      split at h
      · cases h
      · cases h; exact .configured s.buyEnabled s.matchingEnabled (s.whitelist.insert pair)

/-- A command leaves market, block and history to the transaction around it. -/
theorem Executes.frame {s after : Sandbox} {logs : List Log} (h : s.Executes after logs) :
    after.market = s.market ∧ after.block = s.block ∧ after.logs = s.logs := by
  cases h with
  | made | bumped | taken | killed | configured => exact ⟨rfl, rfl, rfl⟩

theorem Executes.kind {s after : Sandbox} {logs : List Log} (h : s.Executes after logs) :
    after.kind = s.kind := by
  cases h with
  | made | bumped | taken | killed | configured => rfl

theorem Executes.single {s after : Sandbox} {logs : List Log} (h : s.Executes after logs) :
    (logs = [] ∧ s.SameBook after) ∨ ∃ log, logs = [log] := by
  cases h with
  | configured => exact .inl ⟨rfl, rfl, rfl, rfl, rfl⟩
  | made | bumped | taken | killed => exact .inr ⟨_, rfl⟩

theorem Executes.log_block {s after : Sandbox} {logs : List Log} (h : s.Executes after logs) :
    ∀ l ∈ logs, l.block = s.block := by
  cases h with
  | configured => simp
  | made | bumped | taken | killed => simp [announce, recordFill, stamp]

def started (s : Sandbox) : Sandbox :=
  { s with nonce := s.nonce + 1 }

def nextHash (s : Sandbox) : Hash :=
  transactionHash s.market (s.nonce + 1)

theorem mine_eq (s : Sandbox) (logs : List Log) :
    s.mine logs =
      { s with
        block := s.block + 1
        logs := s.logs ++ logs
        channels := s.channels.map fun c => logs.foldl Channel.deliver c } := by
  have hfold (logs : List Log) (t : Sandbox) :
      logs.foldl publish t =
        { t with
          logs := t.logs ++ logs
          channels := t.channels.map fun c => logs.foldl Channel.deliver c } := by
    induction logs generalizing t with
    | nil => simp
    | cons log logs ih => rw [List.foldl_cons, ih]; simp [publish, Function.comp_def]
  exact hfold logs { s with block := s.block + 1 }

inductive Submits (s : Sandbox) : Except Stop Pending → Sandbox → Prop
  | refused (cause : Fault) : Submits s (.error (.fault cause)) s
  | trapped (trap : Trap) : Submits s (.error (.trapped trap)) s.started
  | rejected (cause : Fault) :
      Submits s (.ok ⟨s.nextHash, some (.error cause)⟩) (s.started.mine [])
  | mined (after : Sandbox) (logs : List Log) (h : s.started.Executes after logs) :
      Submits s (.ok ⟨s.nextHash, some (.ok ⟨s.nextHash, s.block, logs⟩)⟩) (after.mine logs)

theorem transact_submits (s : Sandbox) (command : Except Fault Command) :
    s.Submits (s.transact command).1 (s.transact command).2 := by
  simp only [transact]
  split
  next after logs h =>
    obtain ⟨c, _, hexec⟩ := bind_eq_ok_iff.mp h
    exact .mined after logs (executes_of_execute hexec)
  next cause h => exact .rejected cause
  next trap h => exact .trapped trap

theorem submit_submits (s : Sandbox) (intent : Intent) :
    s.Submits (s.submit intent).1 (s.submit intent).2 := by
  unfold submit
  split
  · exact .refused _
  · split
    · exact .refused _
    · exact s.transact_submits _

end Sandbox

/-- What is done to a sandbox from outside: a transaction is handed in, or somebody else is to send
the next ones, or time goes on, or the end of trading is moved. -/
inductive Move where
  | submit (intent : Intent)
  | setSender (sender : Address)
  | setTime (now : UInt64)
  | setCloseTime (closeTime : UInt64)

namespace Sandbox

def move (s : Sandbox) : Move → Sandbox
  | .submit intent => (s.submit intent).2
  | .setSender sender => s.setSender sender
  | .setTime now => s.setTime now
  | .setCloseTime closeTime => s.setCloseTime closeTime

def run (s : Sandbox) (moves : List Move) : Sandbox :=
  moves.foldl move s

def receiptLogs (s : Sandbox) : Move → List Log
  | .submit intent =>
      match (s.submit intent).1 with
      | .ok ⟨_, some (.ok receipt)⟩ => receipt.logs
      | _ => []
  | _ => []

def logsOf (s : Sandbox) : List Move → List Log
  | [] => []
  | m :: rest => s.receiptLogs m ++ (s.move m).logsOf rest

/-- The count of ids never starts again from zero: there is a new id for every order of the run. -/
def IdsSuffice (s : Sandbox) : List Move → Prop
  | [] => True
  | m :: rest => s.lastId ≤ (s.move m).lastId ∧ (s.move m).IdsSuffice rest

theorem run_cons (s : Sandbox) (m : Move) (rest : List Move) :
    s.run (m :: rest) = (s.move m).run rest :=
  rfl

theorem run_append (s : Sandbox) (a b : List Move) : s.run (a ++ b) = (s.run a).run b :=
  List.foldl_append

theorem idsSuffice_append {s : Sandbox} {a b : List Move} :
    s.IdsSuffice (a ++ b) ↔ s.IdsSuffice a ∧ (s.run a).IdsSuffice b := by
  induction a generalizing s with
  | nil => simp [IdsSuffice, run]
  | cons m a ih => simp [IdsSuffice, ih, run_cons, and_assoc]

theorem logsOf_append (s : Sandbox) (a b : List Move) :
    s.logsOf (a ++ b) = s.logsOf a ++ (s.run a).logsOf b := by
  induction a generalizing s with
  | nil => rfl
  | cons m a ih => rw [List.cons_append, logsOf, logsOf, ih, run_cons, List.append_assoc]

theorem exists_of_mem_logsOf {s : Sandbox} {moves : List Move} {l : Log}
    (h : l ∈ s.logsOf moves) :
    ∃ before m rest, moves = before ++ m :: rest ∧ l ∈ (s.run before).receiptLogs m := by
  induction moves generalizing s with
  | nil => simp [logsOf] at h
  | cons m moves ih =>
      rcases List.mem_append.mp h with h | h
      · exact ⟨[], m, moves, rfl, h⟩
      · obtain ⟨before, m', rest, rfl, hl⟩ := ih h
        exact ⟨m :: before, m', rest, rfl, hl⟩

def fillsBlock (s : Sandbox) : Move → Bool
  | .submit intent => (s.submit intent).1.toBool
  | _ => false

inductive Moves (s : Sandbox) (m : Move) : Prop
  | idle (hlogs : s.receiptLogs m = []) (hsame : s.SameBook (s.move m))
      (hfills : s.fillsBlock m = false) (hblock : (s.move m).block = s.block)
  | blank (hlogs : s.receiptLogs m = []) (hsame : s.SameBook (s.move m))
      (hfills : s.fillsBlock m = true) (hblock : (s.move m).block = s.block + 1)
  | logged (after : Sandbox) (log : Log) (hexec : s.started.Executes after [log])
      (hlogs : s.receiptLogs m = [log]) (hafter : s.move m = after.mine [log])
      (hfills : s.fillsBlock m = true)

theorem move_moves (s : Sandbox) (m : Move) : s.Moves m := by
  cases m with
  | setSender | setTime | setCloseTime => exact .idle rfl ⟨rfl, rfl, rfl, rfl⟩ rfl rfl
  | submit intent =>
      have hmove : s.move (.submit intent) = (s.submit intent).2 := rfl
      have hfills : s.fillsBlock (.submit intent) = (s.submit intent).1.toBool := rfl
      have hlogs : s.receiptLogs (.submit intent) =
          match (s.submit intent).1 with
          | .ok ⟨_, some (.ok receipt)⟩ => receipt.logs
          | _ => [] := rfl
      have h := s.submit_submits intent
      generalize (s.submit intent).1 = result at h hfills hlogs
      generalize (s.submit intent).2 = t at h hmove
      cases h with
      | refused cause | trapped trap =>
          refine .idle hlogs ?_ hfills ((congrArg block hmove).trans rfl)
          rw [hmove]
          exact ⟨rfl, rfl, rfl, rfl⟩
      | rejected cause =>
          refine .blank hlogs ?_ hfills ((congrArg block hmove).trans rfl)
          rw [hmove]
          exact ⟨rfl, rfl, rfl, rfl⟩
      | mined after logs hexec =>
          rcases hexec.single with ⟨rfl, hsame⟩ | ⟨log, rfl⟩
          · refine .blank hlogs ?_ hfills ?_
            · rw [hmove]
              exact ⟨hsame.market, hsame.offers, hsame.lastId, hsame.logs⟩
            · rw [hmove, mine_eq]
              exact congrArg (· + 1) hexec.frame.2.1
          · exact .logged after log hexec hlogs hmove hfills

theorem market_move (s : Sandbox) (m : Move) : (s.move m).market = s.market := by
  cases s.move_moves m with
  | idle _ hsame | blank _ hsame => exact hsame.market
  | logged after log hexec _ hafter => rw [hafter, mine_eq]; exact hexec.frame.1

theorem kind_move (s : Sandbox) (m : Move) : (s.move m).kind = s.kind := by
  cases m with
  | setSender | setTime | setCloseTime => rfl
  | submit intent =>
      have h := s.submit_submits intent
      change (s.submit intent).2.kind = s.kind
      generalize (s.submit intent).1 = result at h
      generalize (s.submit intent).2 = after at h ⊢
      cases h with
      | refused | trapped | rejected => rfl
      | mined after logs hexec =>
          rw [mine_eq]
          exact hexec.kind

theorem logs_move (s : Sandbox) (m : Move) : (s.move m).logs = s.logs ++ s.receiptLogs m := by
  cases s.move_moves m with
  | idle hlogs hsame | blank hlogs hsame => rw [hlogs, hsame.logs, List.append_nil]
  | logged after log hexec hlogs hafter =>
      rw [hafter, hlogs, mine_eq]
      exact congrArg (· ++ [log]) hexec.frame.2.2

theorem market_run (s : Sandbox) (moves : List Move) : (s.run moves).market = s.market := by
  induction moves generalizing s with
  | nil => rfl
  | cons m rest ih => rw [run_cons, ih, market_move]

theorem kind_run (s : Sandbox) (moves : List Move) : (s.run moves).kind = s.kind := by
  induction moves generalizing s with
  | nil => rfl
  | cons m rest ih => rw [run_cons, ih, kind_move]

theorem logs_run (s : Sandbox) (moves : List Move) :
    (s.run moves).logs = s.logs ++ s.logsOf moves := by
  induction moves generalizing s with
  | nil => exact (List.append_nil _).symm
  | cons m rest ih => rw [run_cons, ih, logs_move, logsOf, List.append_assoc]

def trial : Sandbox :=
  Sandbox.new (Bytes.ofNat 20 1) .simple (Bytes.ofNat 20 2) 0

def trialMove (c : Command) : Move :=
  .submit (c.intent trial.market)

def trialTerms : Terms where
  payToken := Bytes.ofNat 20 3
  payAmount := ⟨.ofUInt64 3⟩
  buyToken := Bytes.ofNat 20 4
  buyAmount := ⟨.ofUInt64 5⟩

def trialMoves : List Move :=
  [trialMove (.make trialTerms), trialMove (.take 1 ⟨.ofUInt64 1⟩)]

end Sandbox

end Barter
