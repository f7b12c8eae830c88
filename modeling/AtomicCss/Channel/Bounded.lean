/-!
# Bounded Channels

A queue that refuses what it has no room for.

A sender offers an item and learns at once whether it was taken. If it was not, the
sender gets it back, with the reason: the receiver takes no more, or else the
channel is full. Either way the channel is as it was before.

A receiver can stop in two ways. It may close the channel, which then takes nothing
more but still delivers what waits. Or it may go away, and then the waiting items
go with it.

## Main definitions

* `Refusal`: Why an item was not taken.
* `BoundedChannel`: The operations of a channel.
* `Bounded`: A channel in memory.
-/

namespace AtomicCss

/-- An item that was not taken, and why. -/
inductive Refusal (α : Type)
  | full (item : α)
  | closed (item : α)
  deriving DecidableEq, Repr

/-- The item that the sender gets back. -/
def Refusal.item : Refusal α → α
  | .full a | .closed a => a

/-- A bounded channel, with its one sender and its one receiver. -/
class BoundedChannel (γ : Type) (α : outParam Type) where
  /-- Whether an item was taken, and the channel after it was offered. -/
  offer : γ → α → Except (Refusal α) Unit × γ
  /-- The item that is received, if there is one, and the channel after it. -/
  receive : γ → Option α × γ
  /-- The channel, once its receiver takes nothing more but what waits. -/
  close : γ → γ
  /-- The channel without its receiver. -/
  drop : γ → γ

/-- A bounded channel in memory: its room, the items that wait, oldest first, and
    whether it takes no more. -/
structure Bounded (α : Type) where
  capacity : Nat
  queue : List α
  closed : Bool
  deriving DecidableEq, Repr

namespace Bounded

/-- An open channel without items. -/
def new (capacity : Nat) : Bounded α :=
  { capacity, queue := [], closed := false }

/-- The channel with one more item, or the item and why it was not taken. -/
def offer (c : Bounded α) (a : α) : Except (Refusal α) Unit × Bounded α :=
  if c.closed then (.error (.closed a), c)
  else if c.queue.length < c.capacity then (.ok (), { c with queue := c.queue ++ [a] })
  else (.error (.full a), c)

/-- The oldest item, if there is one, and the channel without it. -/
def receive (c : Bounded α) : Option α × Bounded α :=
  match c.queue with
  | [] => (none, c)
  | a :: rest => (some a, { c with queue := rest })

/-- The channel, once it takes no more. What waits stays. -/
def close (c : Bounded α) : Bounded α :=
  { c with closed := true }

/-- The channel without its receiver, and so without what waits. -/
def drop (c : Bounded α) : Bounded α :=
  { c with queue := [], closed := true }

instance : BoundedChannel (Bounded α) α where
  offer := offer
  receive := receive
  close := close
  drop := drop

end Bounded

end AtomicCss
