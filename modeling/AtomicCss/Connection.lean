import AtomicCss.Channel.Bounded
import AtomicCss.Channel.Broadcast
import AtomicCss.Document.Update

/-!
# Connections to a Host

A subscriber at one end, a host document at the other, a channel each way.

The host sends its updates in batches over a broadcast channel, and never waits.
The subscriber's changes go back, also in batches, over a bounded channel. The
connection stands in between and works when it is called: it applies everything
that has arrived and then hands over what the subscriber has to say.

Three things can go wrong. A batch may have been lost because the connection was
called too rarely; that is worth a warning, and the rest is applied. The
subscriber may reject an update; then what is left of that batch is lost, but
later batches stay for the next call. And either channel may be closed, or the
outgoing one full; changes that cannot be handed over are gone, and the failure
says how many. Changes are taken from the subscriber only when everything has
been applied, so a call that fails before that leaves them where they are.

## Main definitions

* `Failure`: What can go wrong in a call, `Failure.message` for the text.
* `Connection`: The two channels and the subscriber.
* `Connection.applyBatch`: One batch.
* `Connection.pull`: All batches that have arrived.
* `Connection.flush`: The subscriber's changes.
* `Connection.sync`: Both.
* `Connection.send?`, `Connection.receive`: The host's two operations.
* `Connection.closeInbound`, `Connection.stopOutbound`, `Connection.closeOutbound`: How
  the host ends either.
-/

namespace AtomicCss

/-- What can go wrong in a call. -/
inductive Failure
  | rejected (reason : String)
  | inboundClosed
  | outboundFull (changes : Nat)
  | outboundClosed
  deriving DecidableEq, Repr

/-- The text for the caller. -/
def Failure.message : Failure → String
  | rejected reason => reason
  | inboundClosed => "Recv channel was closed before document ended!"
  | outboundFull changes =>
    "Send channel is full; " ++ toString changes ++ " DOM changes were not delivered"
  | outboundClosed => "Send channel was closed by the host"

/-- The failure of a flush whose batch was refused. -/
def Failure.ofRefusal : Refusal (List Update) → Failure
  | .full batch => .outboundFull batch.length
  | .closed _ => .outboundClosed

/-- A subscriber, the channel its updates come by and the channel its changes go
    by. Any channels will do; where none are named, they are in memory. -/
structure Connection (σ : Type) (β : Type := Broadcast (List Update))
    (γ : Type := Bounded (List Update)) where
  inbox : β
  outbox : γ
  subscriber : σ

namespace Connection

/-- Two open channels in memory with the given room, and a subscriber. -/
def new (inRoom outRoom : Nat) (subscriber : σ) : Connection σ :=
  { inbox := .new inRoom, outbox := .new outRoom, subscriber }

variable {σ β γ : Type} [Subscriber σ] [BroadcastChannel β (List Update)]
  [BoundedChannel γ (List Update)]

/-- The subscriber after a batch, up to the first update it rejects. -/
def applyBatch (s : σ) : List Update → Logged (Except String Unit × σ)
  | [] => pure (.ok (), s)
  | update :: rest => do
    let applied ← Subscriber.apply s update
    match applied.1 with
    | .ok () => applyBatch applied.2 rest
    | .error reason => return (.error reason, applied.2)

/-- The connection after one reception from the host. -/
def received (c : Connection σ β γ) : Connection σ β γ :=
  { c with inbox := (BroadcastChannel.receive c.inbox).2 }

/-- Applies all batches that have arrived. -/
def pull (c : Connection σ β γ) : Logged (Except Failure Unit × Connection σ β γ) :=
  match _ : (BroadcastChannel.receive c.inbox).1 with
  | .empty => pure (.ok (), c.received)
  | .closed => pure (.error .inboundClosed, c.received)
  | .lagged missed => do
    note .warn "dom"
      ("DOMMirror lagged behind the host; " ++ toString missed ++ " batches were dropped")
    pull c.received
  | .item batch => do
    let applied ← applyBatch c.subscriber batch
    let after := { c.received with subscriber := applied.2 }
    match applied.1 with
    | .ok () => pull after
    -- The batch has left the channel, so what follows the rejected update is lost.
    | .error reason => return (.error (.rejected reason), after)
termination_by BroadcastChannel.load c.inbox
decreasing_by
  all_goals
    apply BroadcastChannel.load_receive_lt c.inbox <;> simp_all

/-- Hands over the subscriber's changes, if there are any. -/
def flush (c : Connection σ β γ) : Except Failure Unit × Connection σ β γ :=
  let taken := Subscriber.takeOutgoing c.subscriber
  let after := { c with subscriber := taken.2 }
  if taken.1.isEmpty then (.ok (), after)
  else
    let offered := BoundedChannel.offer c.outbox taken.1
    (offered.1.mapError Failure.ofRefusal, { after with outbox := offered.2 })

/-- Applies all batches that have arrived, and then hands over the subscriber's
    changes. -/
def sync (c : Connection σ β γ) : Logged (Except Failure Unit × Connection σ β γ) := do
  let pulled ← c.pull
  match pulled.1 with
  | .ok () => return pulled.2.flush
  | .error failure => return (.error failure, pulled.2)

/-- The connection after the host has sent a batch, if its channel is open. -/
def send? (c : Connection σ β γ) (batch : List Update) : Option (Connection σ β γ) :=
  (BroadcastChannel.send? c.inbox batch).map fun inbox => { c with inbox }

/-- The batch that the host receives, if there is one, and the connection after. -/
def receive (c : Connection σ β γ) : Option (List Update) × Connection σ β γ :=
  ((BoundedChannel.receive c.outbox).1, { c with outbox := (BoundedChannel.receive c.outbox).2 })

/-- The connection after the host has given up its sending end. -/
def closeInbound (c : Connection σ β γ) : Connection σ β γ :=
  { c with inbox := BroadcastChannel.close c.inbox }

/-- The connection after the host has said that it takes only what waits. -/
def stopOutbound (c : Connection σ β γ) : Connection σ β γ :=
  { c with outbox := BoundedChannel.close c.outbox }

/-- The connection after the host has given up its receiving end. -/
def closeOutbound (c : Connection σ β γ) : Connection σ β γ :=
  { c with outbox := BoundedChannel.drop c.outbox }

end Connection

end AtomicCss
