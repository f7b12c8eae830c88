/-!
# Broadcast Channels

A queue that never makes its sender wait.

A broadcast channel has room for so many items. A sender who finds it full is not
stopped: the oldest item gives way. What the receiver loses that way is counted,
and the receiver is told the number before it gets the next item, once. A channel
that the sender has closed still delivers what is pending, and only then says so.

How a channel keeps its items is its own affair, so `BroadcastChannel` has the
operations only. A receiver that goes on until nothing comes has to stop at some
time, and `load` is why it does: each reception that brings something makes it
less. `Broadcast` is a channel in memory.

The room is a power of two, the least that is no smaller than what was asked for.

## Main definitions

* `Reception`: What a receiver may get.
* `BroadcastChannel`: The operations of a channel.
* `Broadcast`: A channel in memory.

## Theorems

* `Broadcast.load_receive_lt`: Whatever is received makes the channel's load less.
-/

namespace AtomicCss

/-- What a receiver may get: an item, the number of items it has missed, or
    nothing, for now or for ever. -/
inductive Reception (α : Type)
  | item (a : α)
  | lagged (missed : Nat)
  | empty
  | closed
  deriving DecidableEq, Repr

/-- A broadcast channel, from the side of its one receiver. -/
class BroadcastChannel (β : Type) (α : outParam Type) where
  /-- The channel with one more item, unless its sender is gone. -/
  send? : β → α → Option β
  /-- What the receiver gets, and the channel after it. -/
  receive : β → Reception α × β
  /-- The channel without its sender. -/
  close : β → β
  /-- A bound on the receptions in a row that bring something. -/
  load : β → Nat
  load_receive_lt : ∀ c, (receive c).1 ≠ .empty → (receive c).1 ≠ .closed →
    load (receive c).2 < load c

/-- A broadcast channel in memory: its room, the items that wait, oldest first, the
    number of items that gave way since the last reception, and whether it is
    closed. -/
structure Broadcast (α : Type) where
  capacity : Nat
  isPowerOfTwo : capacity.isPowerOfTwo
  pending : List α
  missed : Nat
  closed : Bool
  deriving DecidableEq, Repr

namespace Broadcast

/-- An open channel without items. -/
def new (room : Nat) : Broadcast α :=
  { capacity := room.nextPowerOfTwo, isPowerOfTwo := Nat.isPowerOfTwo_nextPowerOfTwo room
    pending := [], missed := 0, closed := false }

/-- The channel with one more item, if it is open. Without room the oldest gives
    way. -/
def send? (c : Broadcast α) (a : α) : Option (Broadcast α) :=
  if c.closed then none
  else if c.pending.length < c.capacity then some { c with pending := c.pending ++ [a] }
  else some { c with pending := (c.pending ++ [a]).tail, missed := c.missed + 1 }

/-- The channel without its sender. -/
def close (c : Broadcast α) : Broadcast α :=
  { c with closed := true }

/-- What the receiver gets, and the channel after it. -/
def receive (c : Broadcast α) : Reception α × Broadcast α :=
  if c.missed ≠ 0 then (.lagged c.missed, { c with missed := 0 })
  else
    match c.pending with
    | a :: rest => (.item a, { c with pending := rest })
    | [] => (if c.closed then .closed else .empty, c)

/-- The number of receptions that still bring something, and more. -/
def load (c : Broadcast α) : Nat :=
  c.pending.length + c.missed

theorem load_receive_lt (c : Broadcast α) (hempty : c.receive.1 ≠ .empty)
    (hclosed : c.receive.1 ≠ .closed) : c.receive.2.load < c.load := by
  unfold receive at hempty hclosed ⊢
  split
  · -- The count of missed items is handed over and starts again at zero.
    simp only [load]
    omega
  · split
    · next hpending =>
      simp only [load, hpending, List.length_cons]
      omega
    · -- Nothing waits, so what is received says only that.
      simp_all

instance : BroadcastChannel (Broadcast α) α where
  send? := send?
  receive := receive
  close := close
  load := load
  load_receive_lt := load_receive_lt

end Broadcast

end AtomicCss
