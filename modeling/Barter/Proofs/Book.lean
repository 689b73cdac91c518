import Barter.Event
import Mathlib.Data.List.Nodup

namespace Barter

abbrev Book :=
  Std.ExtTreeMap OrderId Offer

def Announcement.offer (a : Announcement) : Offer :=
  { a.toTerms with owner := a.maker, timestamp := a.timestamp }

def Offer.after (o : Offer) (fill : Fill) : Option Offer :=
  let left := o.payAmount - fill.takeAmount
  if left.isZero then none
  else some { o with payAmount := left, buyAmount := o.buyAmount - fill.giveAmount }

namespace Event

def kind : Event → EventKind
  | make _ => .make
  | bump _ => .bump
  | take _ => .take
  | kill _ => .kill

def origin : Event → Origin
  | make order => order.origin
  | bump order => order.origin
  | take fill => fill.origin
  | kill order => order.origin

def apply (book : Book) : Event → Book
  | make order => book.insert order.id order.offer
  | bump _ => book
  | take fill =>
      match book[fill.id]? with
      | none => book
      | some o =>
          match o.after fill with
          | some rest => book.insert fill.id rest
          | none => book.erase fill.id
  | kill order => book.erase order.id

end Event

namespace Book

def replay (book : Book) (events : List Event) : Book :=
  events.foldl Event.apply book

def ofKind (events : List Event) (kind : EventKind) : List Event :=
  events.filter (·.kind = kind)

def merge (makes takes kills : List Event) : List Event :=
  (makes ++ takes ++ kills).mergeSort fun a b => a.origin.block ≤ b.origin.block

def changes (events : List Event) : List Event :=
  events.filter (·.kind ≠ .bump)

theorem replay_changes (book : Book) (events : List Event) :
    book.replay (changes events) = book.replay events := by
  induction events generalizing book with
  | nil => rfl
  | cons e events ih =>
      cases e with
      | bump order => exact ih book
      | make order => exact ih (Event.apply book (.make order))
      | take fill => exact ih (Event.apply book (.take fill))
      | kill order => exact ih (Event.apply book (.kill order))

theorem perm_changes (events : List Event) :
    (ofKind events .make ++ ofKind events .take ++ ofKind events .kill).Perm (changes events) := by
  induction events with
  | nil => exact .refl _
  | cons e events ih =>
      cases e with
      | bump order => exact ih
      | make order => exact ih.cons _
      | take fill =>
          refine .trans ?_ (ih.cons _)
          rw [List.append_assoc, List.append_assoc]
          exact List.perm_middle
      | kill order => exact .trans List.perm_middle (ih.cons _)

theorem merge_eq {events : List Event}
    (h : events.Pairwise fun a b => a.origin.block < b.origin.block) :
    merge (ofKind events .make) (ofKind events .take) (ofKind events .kill) = changes events := by
  have hperm : (merge (ofKind events .make) (ofKind events .take) (ofKind events .kill)).Perm
      (changes events) := (List.mergeSort_perm _ _).trans (perm_changes events)
  have hchanges : (changes events).Pairwise fun a b => a.origin.block < b.origin.block :=
    h.sublist List.filter_sublist
  have hblocks : ((changes events).map fun e => e.origin.block).Nodup :=
    List.pairwise_map.mpr (hchanges.imp UInt64.ne_of_lt)
  -- no two events share a block, so there is only one order by blocks
  refine hperm.eq_of_pairwise ?_ (List.pairwise_mergeSort ?_ ?_ _) (hchanges.imp ?_)
  · intro a b ha hb hle hge
    simp only [decide_eq_true_eq] at hle hge
    exact List.inj_on_of_nodup_map hblocks (hperm.subset ha) hb (UInt64.le_antisymm hle hge)
  · intro a b c hab hbc
    simp only [decide_eq_true_eq] at hab hbc ⊢
    exact UInt64.le_trans hab hbc
  · intro a b
    simpa using UInt64.le_total a.origin.block b.origin.block
  · intro a b hlt
    simpa using UInt64.le_of_lt hlt

theorem replay_merge {events : List Event}
    (h : events.Pairwise fun a b => a.origin.block < b.origin.block) (book : Book) :
    book.replay (merge (ofKind events .make) (ofKind events .take) (ofKind events .kill)) =
      book.replay events := by
  rw [merge_eq h, replay_changes]

end Book

end Barter
