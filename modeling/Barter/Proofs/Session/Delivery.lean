import Barter.Proofs.Sandbox.WellFormed
import Barter.Proofs.Session.Conduct

namespace Barter

open Session

namespace Subscription

def waiting (sub : Subscription) (b : Backend) : List (Except Failure Event) :=
  ((sub.logs b).drop sub.delivered).map (Event.ofLog sub.kind)

def news (b : Backend) : Subscription × Nat → Option (Nat × List (Except Failure Event)) :=
  fun (sub, index) =>
    match (sub.logs b).drop sub.delivered with
    | [] => none
    | logs => some (index, logs.map (Event.ofLog sub.kind))

def caughtUp (sub : Subscription) (b : Backend) : Subscription :=
  { sub with delivered := (sub.logs b).length }

structure Served (sub : Subscription) (b : Backend) (events : List (Except Failure Event)) :
    Prop where
  delivered_le : sub.delivered ≤ (sub.logs b).length
  given_eq : events = ((sub.logs b).take sub.delivered).map (Event.ofLog sub.kind)

namespace Served

variable {sub : Subscription} {b c : Backend} {events : List (Except Failure Event)}

theorem grow (h : sub.Served b events) (hlogs : sub.logs b <+: sub.logs c) :
    sub.Served c events := by
  refine ⟨Nat.le_trans h.delivered_le hlogs.length_le, ?_⟩
  obtain ⟨more, hmore⟩ := hlogs
  rw [h.given_eq, ← hmore, List.take_append_of_le_length h.delivered_le]

theorem append_waiting (h : sub.Served b events) :
    events ++ sub.waiting b = (sub.logs b).map (Event.ofLog sub.kind) := by
  rw [h.given_eq, waiting, ← List.map_append, List.take_append_drop]

theorem caughtUp (h : sub.Served b events) :
    (sub.caughtUp b).Served b (events ++ sub.waiting b) := by
  have hall : (sub.logs b).take (sub.logs b).length = sub.logs b := List.take_length
  refine ⟨Nat.le_refl _, ?_⟩
  rw [h.append_waiting]
  exact congrArg (List.map _) hall.symm

end Served

end Subscription

namespace Session

def given (i : Nat) (events : List (Nat × List (Except Failure Event))) :
    List (Except Failure Event) :=
  (events.filter (·.1 = i)).flatMap Prod.snd

theorem given_append (i : Nat) (events more : List (Nat × List (Except Failure Event))) :
    given i (events ++ more) = given i events ++ given i more := by
  rw [given, List.filter_append, List.flatMap_append]
  rfl

theorem given_news (i : Nat) (b : Backend) (sub : Subscription) (index : Nat) :
    given i (Subscription.news b (sub, index)).toList =
      if index = i then sub.waiting b else [] := by
  rw [Subscription.waiting]
  cases hlogs : (sub.logs b).drop sub.delivered with
  | nil =>
      have hnone : Subscription.news b (sub, index) = none := by
        simp only [Subscription.news, hlogs]
      rw [hnone]
      split <;> rfl
  | cons l rest =>
      have hsome : Subscription.news b (sub, index) =
          some (index, (l :: rest).map (Event.ofLog sub.kind)) := by
        simp only [Subscription.news, hlogs]
      rw [hsome]
      split
      next hindex => simp [given, hindex]
      next hindex => simp [given, hindex]

theorem given_filterMap_news (i : Nat) (b : Backend) (subs : List Subscription) (first : Nat) :
    given i ((subs.zipIdx first).filterMap (Subscription.news b)) =
      if first ≤ i then (subs[i - first]?).elim [] (·.waiting b) else [] := by
  -- over the handlers, whose numbers go on from that of the first one
  induction subs generalizing first with
  | nil => split <;> rfl
  | cons sub rest ih =>
      have hsplit : ((sub :: rest).zipIdx first).filterMap (Subscription.news b) =
          (Subscription.news b (sub, first)).toList ++
            (rest.zipIdx (first + 1)).filterMap (Subscription.news b) := by
        rw [List.zipIdx_cons, List.filterMap_cons]
        cases Subscription.news b (sub, first) <;> rfl
      rw [hsplit, given_append, given_news, ih]
      rcases Nat.lt_trichotomy first i with hlt | rfl | hgt
      · rw [if_neg (Nat.ne_of_lt hlt), if_pos (Nat.succ_le_of_lt hlt),
          if_pos (Nat.le_of_lt hlt),
          show i - first = i - (first + 1) + 1 by omega]
        rfl
      · rw [if_pos rfl, if_neg (Nat.not_succ_le_self first), if_pos (Nat.le_refl first),
          Nat.sub_self, List.append_nil]
        rfl
      · rw [if_neg (Nat.ne_of_gt hgt), if_neg (by omega), if_neg (by omega)]
        rfl

theorem given_deliver (x : Session) (i : Nat) :
    given i x.deliver.1 = (x.subscriptions[i]?).elim [] (·.waiting x.backend) := by
  have h := given_filterMap_news i x.backend x.subscriptions 0
  rw [if_pos (Nat.zero_le i)] at h
  exact h

theorem subscriptions_deliver (x : Session) (i : Nat) :
    x.deliver.2.subscriptions[i]? = (x.subscriptions[i]?).map (·.caughtUp x.backend) :=
  List.getElem?_map

structure Served (x : Session) (events : List (Nat × List (Except Failure Event))) : Prop where
  handlers : ∀ {i : Nat} {sub : Subscription}, x.subscriptions[i]? = some sub →
    sub.Served x.backend (given i events)
  others : ∀ {i : Nat}, x.subscriptions[i]? = none → given i events = []

namespace Served

variable {x y : Session} {events : List (Nat × List (Except Failure Event))}

theorem acts (h : x.Served events) (hacts : x.Acts y) : y.Served events := by
  cases hacts with
  | kept hledger hsame =>
      refine ⟨fun {i sub} hsub => ?_, fun {i} hnone => h.others (hsame ▸ hnone)⟩
      rw [hsame] at hsub
      exact (h.handlers hsub).grow (hledger.logs_prefix sub)
  | subscribed kind stream hledger hmore =>
      refine ⟨fun {i sub} hsub => ?_, fun {i} hnone => h.others ?_⟩
      · rw [hmore, List.getElem?_append] at hsub
        split at hsub
        next => exact (h.handlers hsub).grow (hledger.logs_prefix sub)
        next hlast =>
          have hnone : x.subscriptions[i]? = none :=
            List.getElem?_eq_none (Nat.le_of_not_lt hlast)
          -- the new handler's number has not been used before
          obtain rfl := List.mem_singleton.mp (List.mem_of_getElem? hsub)
          rw [h.others hnone]
          exact ⟨Nat.zero_le _, rfl⟩
      · rw [hmore] at hnone
        have hlength := List.getElem?_eq_none_iff.mp hnone
        rw [List.length_append] at hlength
        exact List.getElem?_eq_none (Nat.le_of_add_right_le hlength)
  | aborted index old hledger hold hset =>
      refine ⟨fun {i sub} hsub => ?_, fun {i} hnone => h.others ?_⟩
      · rw [hset, List.getElem?_set] at hsub
        split at hsub
        next hindex =>
          subst hindex
          split at hsub
          · obtain rfl := Option.some.inj hsub
            have hserved := (h.handlers hold).grow (hledger.logs_prefix old)
            exact ⟨hserved.delivered_le, hserved.given_eq⟩
          · cases hsub
        next => exact (h.handlers hsub).grow (hledger.logs_prefix sub)
      · rw [hset, List.getElem?_eq_none_iff, List.length_set] at hnone
        exact List.getElem?_eq_none hnone

theorem deliver (h : x.Served events) : x.deliver.2.Served (events ++ x.deliver.1) := by
  refine ⟨fun {i sub} hsub => ?_, fun {i} hnone => ?_⟩
  · rw [subscriptions_deliver] at hsub
    obtain ⟨old, hold, rfl⟩ := Option.map_eq_some_iff.mp hsub
    rw [given_append, given_deliver, hold]
    exact (h.handlers hold).caughtUp
  · rw [subscriptions_deliver, Option.map_eq_none_iff] at hnone
    rw [given_append, given_deliver, h.others hnone, hnone]
    rfl

end Served

/-- What can happen around a session: an action of it, after which the handlers get to run, or
something that somebody else does to the sandbox while they do not. -/
inductive Happening where
  | step (a : Action)
  | other (d : Deed)

def happen (x : Session) : Happening → List (Nat × List (Except Failure Event)) × Session
  | .step a => ((x.step a).1.events, (x.step a).2)
  | .other d => ([], { x with backend := x.backend.undergo d })

def events (x : Session) : List Happening → List (Nat × List (Except Failure Event))
  | [] => []
  | h :: rest => (x.happen h).1 ++ (x.happen h).2.events rest

/-- When nobody else does anything, that is what a run shows. -/
theorem events_map_step (x : Session) (actions : List Action) :
    x.events (actions.map .step) = (x.run actions).flatMap Outcome.events := by
  induction actions generalizing x with
  | nil => rfl
  | cons a rest ih => exact congrArg ((x.step a).1.events ++ ·) (ih (x.step a).2)

def acted (x : Session) (a : Action) : Session :=
  ({ x with backend := x.backend.forgetRequests }.act a).2

section

variable {x : Session} {events : List (Nat × List (Except Failure Event))}

theorem Served.acted (h : x.Served events) (a : Action) : (x.acted a).Served events := by
  have hforgotten : { x with backend := x.backend.forgetRequests }.Served events :=
    h.acts (.kept (.forgetRequests _) rfl)
  exact hforgotten.acts (act_acts _ a)

theorem Served.happen (h : x.Served events) (happening : Happening) :
    (x.happen happening).2.Served (events ++ (x.happen happening).1) := by
  cases happening with
  | step a => exact (h.acted a).deliver
  | other d =>
      rw [Session.happen, List.append_nil]
      exact h.acts (.kept (.undergo _ d) rfl)

end

end Session

end Barter
