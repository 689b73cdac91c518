import Barter.Session.State

namespace Barter.Session

structure Outcome where
  result : Except Refusal Reply
  absent : Nat
  backend : Backend
  events : List (Nat × List (Except Failure Event))

def start (backend : Backend) (client : Client) : Session :=
  ⟨backend, [client], 0, []⟩

def client? (s : Session) : Option Client :=
  s.clients[s.current]?

variable {α : Type}

def work (s : Session) (c : Client) (w : Work Backend α) : Except Refusal α × Session :=
  let (result, after) := w ⟨c.absent, s.backend⟩
  (result.mapError (.failure · none),
    { s with
      backend := after.ledger
      clients := s.clients.set s.current { c with absent := after.absent } })

def answered (reply : α → Reply) (r : Except Refusal α × Session) :
    Except Refusal Reply × Session :=
  (r.1.map reply, r.2)

def settle (p : Pending) : Except Refusal Reply :=
  match p.wait with
  | .ok r => .ok (.receipt r)
  | .error cause => .error (.failure cause (some p.transaction))

def settled (r : Except Refusal Pending × Session) : Except Refusal Reply × Session :=
  (r.1 >>= settle, r.2)

def ClientAction.isFor : ClientAction → MarketKind → Bool
  | .makeAt _ _, kind => kind.isMatching
  | .position _, kind => kind.isMatching
  | .isBuyEnabled, kind => kind.isMatching
  | .isMatchingEnabled, kind => kind.isMatching
  | .send command, kind => command.isFor kind
  | .closeSeconds, kind => kind.hasExpiry
  | .closeTime, kind => kind.hasExpiry
  | .isClosed, kind => kind.hasExpiry
  | _, _ => true

def onClient (s : Session) (c : Client) (a : ClientAction) : Except Refusal Reply × Session :=
  let l := Backend.ledger
  let market := c.address
  match a with
  | .describe => (.ok (.description c.describe), s)
  | .lastOrderId => answered (.number ·.toNat) (s.work c (Client.lastOrderId l market))
  | .order id => answered .lookup (s.work c (Client.order l market id))
  | .orders => answered .orders (s.work c (Client.orders l market))
  | .make terms => settled (s.work c (Client.make l market c.kind terms))
  | .makeSimply terms => settled (s.work c (Client.make l market .simple terms))
  | .makeAt terms position => settled (s.work c (Client.makeAt l market terms position))
  | .send command => settled (s.work c (Client.send l market command))
  | .position terms => answered (.number ·.toNat) (s.work c (Client.position l market terms))
  | .isBuyEnabled => answered .flag (s.work c (Client.flag l market .buyEnabled))
  | .isMatchingEnabled => answered .flag (s.work c (Client.flag l market .matchingEnabled))
  | .closeSeconds => answered (.number ·.toNat) (s.work c (Client.closeSeconds l market))
  | .closeTime => answered .time (s.work c (Client.closeTime l market))
  | .isClosed => answered .flag (s.work c (Client.flag l market .isClosed))
  | .pastEvents kind blocks => answered .events (s.work c (Client.pastEvents l market kind blocks))
  | .approve tokens =>
      answered (fun _ => .done) (s.work c (Client.approve l market c.kind tokens))

def onSandbox (s : Sandbox) : SandboxAction → Except Refusal Reply × Sandbox
  | .setSender sender => (.ok .done, s.setSender sender)
  | .setTime now => (.ok .done, s.setTime now)
  | .setCloseTime closeTime => (.ok .done, s.setCloseTime closeTime)
  | .setFlags buyEnabled matchingEnabled => (.ok .done, s.setFlags buyEnabled matchingEnabled)
  | .allowPair pair => (.ok .done, s.allowPair pair)
  | .reserveIds id => (.ok .done, s.reserveIds id)
  | .resetQueries => (.ok .done, s.resetQueries)
  | .insert offer => (.ok (.number s.nextId.toNat), s.insert offer)
  | .insertAt id offer => (.ok .done, s.insertAt id offer)
  | .offer id => (.ok (.offer (s.offer? id)), s)
  | .approvals => (.ok (.approvals s.approvals), s)
  | .summary => (.ok (.summary s.summary s.market s.kind), s)
  | .call contract method args =>
      let (result, after) := s.call contract method args
      ((result.map .values).mapError .fault, after)
  | .submit intent =>
      match s.submit intent with
      | (.ok pending, after) => (settle pending, after)
      | (.error (.fault cause), after) => (.error (.fault cause), after)
      | (.error (.trapped trap), after) => (.error (.failure (.trapped trap) none), after)
  | .pastLogs contract event blocks => (.ok (.logs (s.pastLogs contract event blocks)), s)

def act (s : Session) (a : Action) : Except Refusal Reply × Session :=
  match a, s.client? with
  | .addClient kind address, _ =>
      let index := s.clients.length
      (.ok (.number index),
        { s with clients := s.clients ++ [.new kind address], current := index })
  | .useClient index, _ =>
      if index < s.clients.length then (.ok (.number index), { s with current := index })
      else (.error .unavailable, s)
  | .client action, some c =>
      if action.isFor c.kind then s.onClient c action else (.error .unavailable, s)
  | .client _, none => (.error .unavailable, s)
  | .sandbox action, _ =>
      match s.backend with
      | .sandbox sandbox =>
          let (result, after) := onSandbox sandbox action
          (result, { s with backend := .sandbox after })
      | .playback _ => (.error .unavailable, s)
  | .subscribe kind, some c =>
      match s.work c (Client.subscribe Backend.ledger c.address kind) with
      | (.ok stream, after) =>
          (.ok (.number s.subscriptions.length),
            { after with subscriptions := after.subscriptions ++ [⟨kind, stream, false, 0⟩] })
      | (.error e, after) => (.error e, after)
  | .subscribe _, none => (.error .unavailable, s)
  | .unsubscribe index, _ =>
      match s.subscriptions[index]? with
      | none => (.error .unavailable, s)
      | some subscription =>
          let backend :=
            match subscription.stream with
            | .live channel => s.backend.unsubscribe channel
            | .ended _ => s.backend
          (.ok .done,
            { s with
              backend := backend
              subscriptions := s.subscriptions.set index { subscription with aborted := true } })
  | .finished, _ => (.ok (.flags (s.subscriptions.map Subscription.isFinished)), s)

def deliver (s : Session) : List (Nat × List (Except Failure Event)) × Session :=
  let news := s.subscriptions.zipIdx.filterMap fun (subscription, index) =>
    match (subscription.logs s.backend).drop subscription.delivered with
    | [] => none
    | logs => some (index, logs.map (Event.ofLog subscription.kind))
  let caughtUp := s.subscriptions.map fun subscription =>
    { subscription with delivered := (subscription.logs s.backend).length }
  (news, { s with subscriptions := caughtUp })

def step (s : Session) (a : Action) : Outcome × Session :=
  let (result, acted) := act { s with backend := s.backend.forgetRequests } a
  let (events, after) := acted.deliver
  let absent := (after.client?.map fun c => c.absent.size).getD 0
  (⟨result, absent, after.backend, events⟩, after)

def run (s : Session) : List Action → List Outcome
  | [] => []
  | a :: rest =>
      let (outcome, after) := s.step a
      outcome :: run after rest

end Barter.Session
