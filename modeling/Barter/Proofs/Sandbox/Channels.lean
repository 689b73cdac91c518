import Barter.Proofs.Sandbox.Window

namespace Barter

open Session

namespace Channel

theorem foldl_deliver_of_open {c : Channel} (h : c.isOpen = true) (logs : List Log) :
    logs.foldl deliver c = { c with sent := c.sent ++ logs.filter fun l => l.event = c.event } := by
  induction logs generalizing c with
  | nil => rw [List.filter_nil, List.append_nil]; rfl
  | cons l rest ih =>
      by_cases hevent : c.event = l.event
      · have hsent : c.deliver l = { c with sent := c.sent ++ [l] } :=
          if_pos (by simp [h, hevent])
        rw [List.foldl_cons, hsent, ih (by exact h),
          List.filter_cons_of_pos (by simp [hevent])]
        simp
      · have hkept : c.deliver l = c := if_neg (by simp [h, hevent])
        rw [List.foldl_cons, hkept, ih h,
          List.filter_cons_of_neg (by simpa using Ne.symm hevent)]

theorem foldl_deliver_of_closed {c : Channel} (h : c.isOpen = false) (logs : List Log) :
    logs.foldl deliver c = c := by
  induction logs with
  | nil => rfl
  | cons l rest ih =>
      have hkept : c.deliver l = c := if_neg (by simp [h])
      rw [List.foldl_cons, hkept, ih]

theorem sent_prefix_foldl_deliver (c : Channel) (logs : List Log) :
    c.sent <+: (logs.foldl deliver c).sent := by
  cases h : c.isOpen with
  | true =>
      rw [foldl_deliver_of_open h]
      exact List.prefix_append _ _
  | false => rw [foldl_deliver_of_closed h]

end Channel

def Deed.listens : Deed → Bool
  | .subscribe _ _ => true
  | .unsubscribe _ => true
  | _ => false

namespace Sandbox

section

variable {s : Sandbox} {d : Deed} {deeds : List Deed} {i : Nat} {c : Channel}

theorem published_eq (s : Sandbox) (intent : Intent) :
    published (s.submit intent).1 =
      (s.taken? (.act (.submit intent))).toList.flatMap Pending.logs := by
  have htaken : s.taken? (.act (.submit intent)) = (s.submit intent).1.toOption := rfl
  rw [htaken]
  cases (s.submit intent).1 with
  | ok pending => exact (List.append_nil _).symm
  | error => rfl

/-- Whatever else is done, a channel that is not closed by it is sent what is logged. -/
theorem channels_undergo (hc : s.channels[i]? = some c) (hkept : d ≠ .unsubscribe i) :
    (s.undergo d).channels[i]? =
      some (((s.taken? d).toList.flatMap Pending.logs).foldl Channel.deliver c) := by
  cases d with
  | approve => exact hc
  | subscribe contract event =>
      rw [undergo_subscribe]
      by_cases hhere : contract = s.market
      · obtain ⟨hi, _⟩ := List.getElem?_eq_some_iff.mp hc
        rw [if_pos hhere]
        exact (List.getElem?_append_left hi).trans hc
      · rw [if_neg hhere]
        exact hc
  | unsubscribe channel =>
      have hother : channel ≠ i := fun h => hkept (h ▸ rfl)
      exact (List.getElem?_modify_ne _ _ hother).trans hc
  | act a =>
      cases a with
      | submit intent =>
          have hafter : s.undergo (.act (.submit intent)) = (s.submit intent).2 :=
            s.act_submit intent
          rw [hafter, (submit_snd intent).2, List.getElem?_map, hc, published_eq]
          rfl
      | setSender | setTime | setCloseTime | setFlags | allowPair | reserveIds | resetQueries
      | insert | insertAt | offer | approvals | summary | call | pastLogs => exact hc

theorem sent_eq (hc : s.channels[i]? = some c) : s.sent i = c.sent := by
  rw [sent, hc]
  rfl

theorem sent_prefix_undergo (s : Sandbox) (d : Deed) (i : Nat) :
    s.sent i <+: (s.undergo d).sent i := by
  cases hc : s.channels[i]? with
  | none =>
      have hnone : s.sent i = [] := by rw [sent, hc]; rfl
      exact hnone ▸ List.nil_prefix
  | some c =>
      rw [sent_eq hc]
      by_cases hkept : d = .unsubscribe i
      · subst hkept
        have hclosed : (s.undergo (.unsubscribe i)).channels[i]? = some c.close :=
          (List.getElem?_modify_eq ..).trans (congrArg (Option.map Channel.close) hc)
        rw [sent_eq hclosed]
        exact List.prefix_refl _
      · rw [sent_eq (channels_undergo hc hkept)]
        exact c.sent_prefix_foldl_deliver _

theorem sent_prefix_undergoAll (s : Sandbox) (deeds : List Deed) (i : Nat) :
    s.sent i <+: (s.undergoAll deeds).sent i := by
  induction deeds generalizing s with
  | nil => exact List.prefix_refl _
  | cons d rest ih => exact (s.sent_prefix_undergo d i).trans (ih _)

end

def Alongside (s t : Sandbox) : Prop :=
  ∃ n channels, t = s.aside n channels

namespace Alongside

variable {s t u : Sandbox}

theorem refl (s : Sandbox) : s.Alongside s :=
  ⟨s.queries, s.channels, rfl⟩

theorem symm (h : s.Alongside t) : t.Alongside s := by
  obtain ⟨n, channels, rfl⟩ := h
  exact ⟨s.queries, s.channels, rfl⟩

theorem trans (hst : s.Alongside t) (htu : t.Alongside u) : s.Alongside u := by
  obtain ⟨n, channels, rfl⟩ := hst
  obtain ⟨m, others, rfl⟩ := htu
  exact ⟨m, others, rfl⟩

theorem logs (h : s.Alongside t) : t.logs = s.logs := by
  obtain ⟨n, channels, rfl⟩ := h
  rfl

theorem block (h : s.Alongside t) : t.block = s.block := by
  obtain ⟨n, channels, rfl⟩ := h
  rfl

/-- To begin or to end to listen leaves the market as it is. -/
theorem of_listens (s : Sandbox) {d : Deed} (h : d.listens = true) :
    s.Alongside (s.undergo d) ∧ s.taken? d = none := by
  cases d with
  | act | approve => cases h
  | subscribe contract event => exact ⟨⟨_, _, s.undergo_subscribe contract event⟩, rfl⟩
  | unsubscribe channel => exact ⟨⟨_, _, rfl⟩, rfl⟩

theorem undergo (h : s.Alongside t) {d : Deed} (hd : d.listens = false) :
    (s.undergo d).Alongside (t.undergo d) ∧ t.taken? d = s.taken? d := by
  obtain ⟨n, channels, rfl⟩ := h
  cases d with
  | subscribe | unsubscribe => cases hd
  | approve => exact ⟨⟨n, channels, rfl⟩, rfl⟩
  | act a =>
      cases a with
      | submit intent =>
          have hsubmit := s.submit_aside n channels intent
          have hafter (s : Sandbox) : s.undergo (.act (.submit intent)) = (s.submit intent).2 :=
            s.act_submit intent
          rw [hafter, hafter, taken?, taken?, hsubmit]
          exact ⟨⟨n, _, rfl⟩, rfl⟩
      | call => exact ⟨⟨n + 1, channels, rfl⟩, rfl⟩
      | resetQueries => exact ⟨⟨0, channels, rfl⟩, rfl⟩
      | setSender | setTime | setCloseTime | setFlags | allowPair | reserveIds | insert | insertAt
      | offer | approvals | summary | pastLogs => exact ⟨⟨n, channels, rfl⟩, rfl⟩

/-- Those who listen do nothing to the market that others could notice. -/
theorem undergoAll (h : s.Alongside t) (deeds : List Deed) :
    (s.undergoAll (deeds.filter (!·.listens))).Alongside (t.undergoAll deeds) ∧
      t.blocks deeds = s.blocks (deeds.filter (!·.listens)) := by
  induction deeds generalizing s t with
  | nil => exact ⟨h, rfl⟩
  | cons d rest ih =>
      cases hd : d.listens with
      | true =>
          obtain ⟨halong, htaken⟩ := of_listens t hd
          rw [List.filter_cons_of_neg (by simp [hd]), blocks, htaken]
          exact ih (h.trans halong)
      | false =>
          obtain ⟨halong, htaken⟩ := h.undergo hd
          obtain ⟨hrest, hblocks⟩ := ih halong
          rw [List.filter_cons_of_pos (by simp [hd]), blocks, blocks, htaken, hblocks]
          exact ⟨hrest, rfl⟩

end Alongside

end Sandbox

end Barter
