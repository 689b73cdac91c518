import Barter.Proofs.Sandbox.Handling

namespace Barter

def Pending.receipt? (p : Pending) : Option Receipt :=
  p.wait.toOption

def Pending.logs (p : Pending) : List Log :=
  p.receipt?.elim [] Receipt.logs

namespace Sandbox

def published : Except Stop Pending → List Log
  | .ok pending => pending.logs
  | .error _ => []

def aside (s : Sandbox) (n : Nat) (channels : List Channel) : Sandbox :=
  { s with queries := n, channels := channels }

def Effect.aside (n : Nat) (channels : List Channel) (effect : Effect) : Effect :=
  (effect.1.aside n channels, effect.2)

variable (s : Sandbox) (n : Nat) (channels : List Channel)

theorem create_aside (terms : Terms) :
    (s.aside n channels).create terms = (s.create terms).map (Effect.aside n channels) := by
  simp only [create, apply_ite (Except.map (Effect.aside n channels))]
  rfl

theorem bump_aside (id : OrderId) :
    (s.aside n channels).bump id = (s.bump id).map (Effect.aside n channels) := by
  have hlive : (s.aside n channels).liveOffer id = s.liveOffer id := rfl
  rw [bump, bump, hlive]
  cases s.liveOffer id <;> rfl

theorem take_aside (id : OrderId) (quantity : Wad) :
    (s.aside n channels).take id quantity =
      (s.take id quantity).map (Effect.aside n channels) := by
  have hlive : (s.aside n channels).liveOffer id = s.liveOffer id := rfl
  simp only [take, hlive, apply_ite (Except.map (Effect.aside n channels)), bind, Except.bind]
  cases s.liveOffer id with
  | error stop => rfl
  | ok offer =>
      simp only
      cases priceOf offer quantity with
      | error stop => rfl
      | ok given =>
          simp only [apply_ite (Except.map (Effect.aside n channels))]
          rfl

theorem kill_aside (id : OrderId) :
    (s.aside n channels).kill id = (s.kill id).map (Effect.aside n channels) := by
  have hlive : (s.aside n channels).liveOffer id = s.liveOffer id := rfl
  simp only [kill, hlive, bind, Except.bind]
  cases s.liveOffer id with
  | error stop => rfl
  | ok offer =>
      simp only [apply_ite (Except.map (Effect.aside n channels))]
      rfl

theorem execute_aside (c : Command) :
    (s.aside n channels).execute c = (s.execute c).map (Effect.aside n channels) := by
  cases c with
  | make terms => exact s.create_aside n channels terms
  | bump id => exact s.bump_aside n channels id
  | take id quantity => exact s.take_aside n channels id quantity
  | kill id => exact s.kill_aside n channels id
  | setBuyEnabled | setMatchingEnabled => rfl
  | offer terms position =>
      simp only [execute, apply_ite (Except.map (Effect.aside n channels)), create_aside]
      rfl
  | whitelist pair =>
      simp only [execute, apply_ite (Except.map (Effect.aside n channels))]
      rfl

theorem mine_aside (logs : List Log) :
    (s.aside n channels).mine logs =
      (s.mine logs).aside n (channels.map fun c => logs.foldl Channel.deliver c) := by
  rw [mine_eq, mine_eq]
  rfl

theorem transact_aside (command : Except Fault Command) :
    (s.aside n channels).transact command =
      ((s.transact command).1, (s.transact command).2.aside n
        (channels.map fun c => (published (s.transact command).1).foldl Channel.deliver c)) := by
  cases command with
  | error cause => exact congrArg (Prod.mk _) (s.started.mine_aside n channels [])
  | ok c =>
      have hexec : (s.aside n channels).started.execute c =
          (s.started.execute c).map (Effect.aside n channels) :=
        s.started.execute_aside n channels c
      rw [transact_ok, transact_ok, hexec]
      rcases s.started.execute c with (cause | trap) | ⟨after, logs⟩
      · exact congrArg (Prod.mk _) (s.started.mine_aside n channels [])
      · exact congrArg (fun cs => (_, s.started.aside n cs)) (List.map_id' channels).symm
      · exact congrArg (Prod.mk _) (after.mine_aside n channels logs)

theorem submit_aside (intent : Intent) :
    (s.aside n channels).submit intent =
      ((s.submit intent).1, (s.submit intent).2.aside n
        (channels.map fun c => (published (s.submit intent).1).foldl Channel.deliver c)) := by
  have hmarket : (s.aside n channels).market = s.market := rfl
  have hkind : (s.aside n channels).kind = s.kind := rfl
  have hidle : s.aside n channels =
      s.aside n (channels.map fun c => ([] : List Log).foldl Channel.deliver c) :=
    congrArg (s.aside n) (List.map_id' channels).symm
  rw [submit, submit, hmarket, hkind]
  by_cases hhere : intent.contract = s.market
  · rw [if_neg (Decidable.not_not.mpr hhere), if_neg (Decidable.not_not.mpr hhere)]
    have htransact := s.transact_aside n channels
    generalize Command.ofCall s.kind intent.method intent.args = read
    split
    · exact congrArg (Prod.mk _) hidle
    · exact htransact read
  · rw [if_pos hhere, if_pos hhere]
    exact congrArg (Prod.mk _) hidle

variable {s}

/-- A transaction asks no questions, and delivers its logs to those who listen. -/
theorem submit_snd (intent : Intent) :
    (s.submit intent).2.queries = s.queries ∧
      (s.submit intent).2.channels =
        s.channels.map fun c => (published (s.submit intent).1).foldl Channel.deliver c := by
  have h := congrArg Prod.snd (s.submit_aside s.queries s.channels intent)
  have hsame : s.aside s.queries s.channels = s := rfl
  rw [hsame] at h
  have hqueries := congrArg queries h
  have hchannels := congrArg Sandbox.channels h
  exact ⟨hqueries, hchannels⟩

end Sandbox

end Barter
