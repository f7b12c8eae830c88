import AtomicCss.Channel.Bounded
import AtomicCss.Channel.Broadcast

/-!
# Laws of Channels

What may be relied on of a channel, whatever kind it is.

`BroadcastChannel` and `BoundedChannel` give the operations and promise nothing
about them. A law speaks of what can be observed of a channel, and of nothing else
that may be inside it. Of a broadcast channel that is its `Traffic`: the room, the
items that wait, the number of those that gave way, and whether the sender is gone.
Of a bounded channel it is the items that wait, and whether it still takes any.

Both are first in, first out. A broadcast channel that is full gives up its oldest
item; its receiver is told how many it has missed before it gets another, and that
the channel is closed only when nothing waits any more. A bounded channel either
takes an item, which then waits behind the others, or gives it back and is as it
was. When a bounded channel takes an item is a law of its own, since most of what
is said about a connection does not depend on it (`SizedBounded`).

## Main definitions

* `Traffic`: What can be observed of a broadcast channel.
* `LawfulBroadcast`: Its laws, `LawfulBroadcast.IsNew` for one that was just made.
* `LawfulBounded`: The laws of a bounded channel.
* `SizedBounded`: And when it has room.
-/

namespace AtomicCss

/-- What can be observed of a broadcast channel: its room, the items that wait, oldest
    first, the number of items that gave way since the last reception, and whether
    the sender is gone. -/
structure Traffic (α : Type) where
  capacity : Nat
  pending : List α := []
  missed : Nat := 0
  closed : Bool := false

/-- What may be relied on of a broadcast channel. -/
class LawfulBroadcast (β : Type) (α : outParam Type) [BroadcastChannel β α] where
  /-- What can be observed. -/
  traffic : β → Traffic α
  /-- There is room for a power of two, and so for one item at least. -/
  capacity_isPowerOfTwo : ∀ c, (traffic c).capacity.isPowerOfTwo
  /-- A sender that is gone sends nothing. -/
  send?_closed : ∀ c a, (traffic c).closed = true → BroadcastChannel.send? c a = none
  /-- An item that there is room for waits behind the others. -/
  send?_room : ∀ c a, (traffic c).closed = false →
    (traffic c).pending.length < (traffic c).capacity →
    (BroadcastChannel.send? c a).map traffic =
      some { traffic c with pending := (traffic c).pending ++ [a] }
  /-- Without room, the oldest item gives way and is counted. -/
  send?_full : ∀ c a oldest rest, (traffic c).closed = false →
    (traffic c).capacity ≤ (traffic c).pending.length → (traffic c).pending = oldest :: rest →
    (BroadcastChannel.send? c a).map traffic =
      some { traffic c with pending := rest ++ [a], missed := (traffic c).missed + 1 }
  /-- The receiver is first told how many items it has missed, and only once. -/
  receive_missed : ∀ c, (traffic c).missed ≠ 0 →
    (BroadcastChannel.receive c).1 = .lagged (traffic c).missed ∧
      traffic (BroadcastChannel.receive c).2 = { traffic c with missed := 0 }
  /-- Then it gets the oldest item that waits. -/
  receive_oldest : ∀ c a rest, (traffic c).missed = 0 → (traffic c).pending = a :: rest →
    (BroadcastChannel.receive c).1 = .item a ∧
      traffic (BroadcastChannel.receive c).2 = { traffic c with pending := rest }
  /-- Only when nothing waits is it told so, or that the sender is gone. -/
  receive_drained : ∀ c, (traffic c).missed = 0 → (traffic c).pending = [] →
    (BroadcastChannel.receive c).1 = (if (traffic c).closed then .closed else .empty) ∧
      traffic (BroadcastChannel.receive c).2 = traffic c
  /-- What waits when the sender goes still waits. -/
  traffic_close : ∀ c, traffic (BroadcastChannel.close c) = { traffic c with closed := true }

namespace LawfulBroadcast

variable {β α : Type} [BroadcastChannel β α] [LawfulBroadcast β α]

/-- A channel that was just made, with room for so many items. The number is rounded up
    to a power of two. -/
def IsNew (room : Nat) (c : β) : Prop :=
  traffic c = { capacity := room.nextPowerOfTwo }

/-- A channel without room has an oldest item, since there is room for one at least. -/
theorem exists_oldest (c : β) (h : (traffic c).capacity ≤ (traffic c).pending.length) :
    ∃ oldest rest, (traffic c).pending = oldest :: rest :=
  List.exists_cons_of_length_pos
    (Nat.lt_of_lt_of_le (Nat.pos_of_isPowerOfTwo (capacity_isPowerOfTwo c)) h)

end LawfulBroadcast

/-- What may be relied on of a bounded channel. -/
class LawfulBounded (γ : Type) (α : outParam Type) [BoundedChannel γ α] where
  /-- The items that wait, oldest first. -/
  waiting : γ → List α
  /-- The channel takes no more. -/
  closed : γ → Bool
  /-- An item is taken by an open channel only, and waits behind the others. -/
  offer_ok : ∀ c a, (BoundedChannel.offer c a).1 = .ok () →
    closed c = false ∧ waiting (BoundedChannel.offer c a).2 = waiting c ++ [a] ∧
      closed (BoundedChannel.offer c a).2 = false
  /-- An item that is not taken comes back, and the channel is as it was. -/
  offer_error : ∀ c a refusal, (BoundedChannel.offer c a).1 = .error refusal →
    refusal.item = a ∧ waiting (BoundedChannel.offer c a).2 = waiting c ∧
      closed (BoundedChannel.offer c a).2 = closed c
  /-- The receiver gets the oldest item that waits. -/
  receive_oldest : ∀ c a rest, waiting c = a :: rest →
    (BoundedChannel.receive c).1 = some a ∧ waiting (BoundedChannel.receive c).2 = rest
  receive_drained : ∀ c, waiting c = [] →
    (BoundedChannel.receive c).1 = none ∧ waiting (BoundedChannel.receive c).2 = []
  closed_receive : ∀ c, closed (BoundedChannel.receive c).2 = closed c
  /-- What waits when the receiver closes the channel still waits. -/
  waiting_close : ∀ c, waiting (BoundedChannel.close c) = waiting c
  closed_close : ∀ c, closed (BoundedChannel.close c) = true
  /-- What waits when the receiver goes is gone as well. -/
  waiting_drop : ∀ c, waiting (BoundedChannel.drop c) = []
  closed_drop : ∀ c, closed (BoundedChannel.drop c) = true

/-- A bounded channel that refuses an item only if it takes no more, or else if there is
    no room. -/
class SizedBounded (γ : Type) (α : outParam Type) [BoundedChannel γ α] extends
    LawfulBounded γ α where
  /-- The number of items that there is room for. -/
  capacity : γ → Nat
  offer_closed : ∀ c a, closed c = true → (BoundedChannel.offer c a).1 = .error (.closed a)
  offer_room : ∀ c a, closed c = false → (waiting c).length < capacity c →
    (BoundedChannel.offer c a).1 = .ok ()
  offer_full : ∀ c a, closed c = false → capacity c ≤ (waiting c).length →
    (BoundedChannel.offer c a).1 = .error (.full a)
  capacity_offer : ∀ c a, capacity (BoundedChannel.offer c a).2 = capacity c
  capacity_receive : ∀ c, capacity (BoundedChannel.receive c).2 = capacity c
  capacity_close : ∀ c, capacity (BoundedChannel.close c) = capacity c
  capacity_drop : ∀ c, capacity (BoundedChannel.drop c) = capacity c

/-- An open bounded channel without items, with room for so many. -/
def SizedBounded.IsNew {γ α : Type} [BoundedChannel γ α] [SizedBounded γ α] (room : Nat)
    (c : γ) : Prop :=
  capacity c = room ∧ LawfulBounded.waiting c = [] ∧ LawfulBounded.closed c = false

namespace Broadcast

/-- Nothing in a channel in memory is hidden. -/
def traffic (c : Broadcast α) : Traffic α :=
  { capacity := c.capacity, pending := c.pending, missed := c.missed, closed := c.closed }

theorem send?_of_room (c : Broadcast α) (a : α) (hopen : c.closed = false)
    (hroom : c.pending.length < c.capacity) :
    c.send? a = some { c with pending := c.pending ++ [a] } := by
  rw [send?, if_neg (Bool.eq_false_iff.1 hopen), if_pos hroom]

theorem send?_of_full (c : Broadcast α) (a oldest : α) (rest : List α) (hopen : c.closed = false)
    (hfull : c.capacity ≤ c.pending.length) (hpending : c.pending = oldest :: rest) :
    c.send? a = some { c with pending := rest ++ [a], missed := c.missed + 1 } := by
  rw [send?, if_neg (Bool.eq_false_iff.1 hopen), if_neg (Nat.not_lt.2 hfull), hpending]
  rfl

theorem receive_of_missed (c : Broadcast α) (h : c.missed ≠ 0) :
    c.receive = (.lagged c.missed, { c with missed := 0 }) :=
  if_pos h

theorem receive_of_cons (c : Broadcast α) (a : α) (rest : List α) (hmissed : c.missed = 0)
    (hpending : c.pending = a :: rest) : c.receive = (.item a, { c with pending := rest }) := by
  rw [receive, if_neg (not_not_intro hmissed), hpending]

theorem receive_of_nil (c : Broadcast α) (hmissed : c.missed = 0) (hpending : c.pending = []) :
    c.receive = (if c.closed then .closed else .empty, c) := by
  rw [receive, if_neg (not_not_intro hmissed), hpending]

/-- The laws hold of a channel in memory. -/
instance : LawfulBroadcast (Broadcast α) α where
  traffic := traffic
  capacity_isPowerOfTwo := isPowerOfTwo
  send?_closed _ _ h := if_pos h
  send?_room c a hopen hroom := congrArg (Option.map traffic) (c.send?_of_room a hopen hroom)
  send?_full c a oldest rest hopen hfull hpending :=
    congrArg (Option.map traffic) (c.send?_of_full a oldest rest hopen hfull hpending)
  receive_missed c h :=
    have hreceived := c.receive_of_missed h
    ⟨congrArg Prod.fst hreceived, congrArg (fun r => traffic r.2) hreceived⟩
  receive_oldest c a rest hmissed hpending :=
    have hreceived := c.receive_of_cons a rest hmissed hpending
    ⟨congrArg Prod.fst hreceived, congrArg (fun r => traffic r.2) hreceived⟩
  receive_drained c hmissed hpending :=
    have hreceived := c.receive_of_nil hmissed hpending
    ⟨congrArg Prod.fst hreceived, congrArg (fun r => traffic r.2) hreceived⟩
  traffic_close _ := rfl

theorem isNew_new (room : Nat) : LawfulBroadcast.IsNew room (new room : Broadcast α) := rfl

end Broadcast

namespace Bounded

theorem offer_of_closed (c : Bounded α) (a : α) (h : c.closed = true) :
    c.offer a = (.error (.closed a), c) :=
  if_pos h

theorem offer_of_room (c : Bounded α) (a : α) (hopen : c.closed = false)
    (hroom : c.queue.length < c.capacity) :
    c.offer a = (.ok (), { c with queue := c.queue ++ [a] }) := by
  rw [offer, if_neg (Bool.eq_false_iff.1 hopen), if_pos hroom]

theorem offer_of_full (c : Bounded α) (a : α) (hopen : c.closed = false)
    (hfull : c.capacity ≤ c.queue.length) : c.offer a = (.error (.full a), c) := by
  rw [offer, if_neg (Bool.eq_false_iff.1 hopen), if_neg (Nat.not_lt.2 hfull)]

/-- What is offered is taken, or it is refused and nothing has changed. -/
theorem offer_cases (c : Bounded α) (a : α) :
    (c.closed = false ∧ c.offer a = (.ok (), { c with queue := c.queue ++ [a] })) ∨
      ∃ refusal, refusal.item = a ∧ c.offer a = (.error refusal, c) := by
  by_cases hclosed : c.closed = true
  · exact .inr ⟨.closed a, rfl, c.offer_of_closed a hclosed⟩
  rw [Bool.not_eq_true] at hclosed
  rcases Nat.lt_or_ge c.queue.length c.capacity with hroom | hfull
  · exact .inl ⟨hclosed, c.offer_of_room a hclosed hroom⟩
  · exact .inr ⟨.full a, rfl, c.offer_of_full a hclosed hfull⟩

theorem receive_of_cons (c : Bounded α) (a : α) (rest : List α) (h : c.queue = a :: rest) :
    c.receive = (some a, { c with queue := rest }) := by
  rw [receive, h]

theorem receive_of_nil (c : Bounded α) (h : c.queue = []) : c.receive = (none, c) := by
  rw [receive, h]

/-- The laws hold of a channel in memory. -/
instance : LawfulBounded (Bounded α) α where
  waiting := queue
  closed := closed
  offer_ok c a h := by
    change (c.offer a).1 = _ at h
    change _ ∧ (c.offer a).2.queue = _ ∧ (c.offer a).2.closed = _
    rcases c.offer_cases a with ⟨hopen, hoffer⟩ | ⟨refusal, _, hoffer⟩
    · rw [hoffer]
      exact ⟨hopen, rfl, hopen⟩
    · rw [hoffer] at h
      exact absurd h (by simp only [reduceCtorEq, not_false_eq_true])
  offer_error c a refusal h := by
    change (c.offer a).1 = _ at h
    change _ ∧ (c.offer a).2.queue = _ ∧ (c.offer a).2.closed = _
    rcases c.offer_cases a with ⟨_, hoffer⟩ | ⟨reason, hitem, hoffer⟩
    · rw [hoffer] at h
      exact absurd h (by simp only [reduceCtorEq, not_false_eq_true])
    · rw [hoffer] at h ⊢
      exact ⟨Except.error.inj h ▸ hitem, rfl, rfl⟩
  receive_oldest c a rest h :=
    have hreceived := c.receive_of_cons a rest h
    ⟨congrArg Prod.fst hreceived, congrArg (fun r => r.2.queue) hreceived⟩
  receive_drained c h :=
    have hreceived := c.receive_of_nil h
    ⟨congrArg Prod.fst hreceived, (congrArg (fun r => r.2.queue) hreceived).trans h⟩
  closed_receive c := by
    change c.receive.2.closed = c.closed
    cases hqueue : c.queue with
    | nil => rw [c.receive_of_nil hqueue]
    | cons a rest => rw [c.receive_of_cons a rest hqueue]
  waiting_close _ := rfl
  closed_close _ := rfl
  waiting_drop _ := rfl
  closed_drop _ := rfl

/-- It refuses an item only if it must. -/
instance : SizedBounded (Bounded α) α where
  capacity := capacity
  offer_closed c a h := congrArg Prod.fst (c.offer_of_closed a h)
  offer_room c a hopen hroom := congrArg Prod.fst (c.offer_of_room a hopen hroom)
  offer_full c a hopen hfull := congrArg Prod.fst (c.offer_of_full a hopen hfull)
  capacity_offer c a := by
    change (c.offer a).2.capacity = c.capacity
    rcases c.offer_cases a with ⟨_, hoffer⟩ | ⟨_, _, hoffer⟩ <;> rw [hoffer]
  capacity_receive c := by
    change c.receive.2.capacity = c.capacity
    cases hqueue : c.queue with
    | nil => rw [c.receive_of_nil hqueue]
    | cons a rest => rw [c.receive_of_cons a rest hqueue]
  capacity_close _ := rfl
  capacity_drop _ := rfl

theorem isNew_new (room : Nat) : SizedBounded.IsNew room (new room : Bounded α) :=
  ⟨rfl, rfl, rfl⟩

end Bounded

end AtomicCss
