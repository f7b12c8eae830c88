import AtomicCss.Connection

/-!
# Histories of a Connection

What the two ends can do with a connection, as data.

The host sends, receives and may stop doing either; the other end asks for a
synchronisation or only for its changes to be handed over. What becomes of a
batch depends on how these interleave, so a history is a list of calls from both
ends in the order in which they happen.

## Main definitions

* `Connection.Call`, `Connection.Reply`: A call and what it answers.
* `Connection.perform`: One call.
* `Connection.run`: A history.
-/

namespace AtomicCss

namespace Connection

/-- Something that one of the two ends does. -/
inductive Call
  | send (batch : List Update)
  | receive
  | closeInbound
  | stopOutbound
  | closeOutbound
  | sync
  | flush
  deriving DecidableEq, Repr

/-- What a call answers. -/
inductive Reply
  | sent (accepted : Bool)
  | received (batch : Option (List Update))
  | closed
  | finished (outcome : Except Failure Unit)
  deriving Repr

variable {σ β γ : Type} [Subscriber σ] [BroadcastChannel β (List Update)]
  [BoundedChannel γ (List Update)]

/-- The answer to one call, and the connection after it. A batch that is sent over a
    closed channel changes nothing. -/
def perform (c : Connection σ β γ) : Call → Logged (Reply × Connection σ β γ)
  | .send batch =>
    match c.send? batch with
    | some after => pure (.sent true, after)
    | none => pure (.sent false, c)
  | .receive => pure (.received c.receive.1, c.receive.2)
  | .closeInbound => pure (.closed, c.closeInbound)
  | .stopOutbound => pure (.closed, c.stopOutbound)
  | .closeOutbound => pure (.closed, c.closeOutbound)
  | .sync => (fun r => (.finished r.1, r.2)) <$> c.sync
  | .flush => pure (.finished c.flush.1, c.flush.2)

/-- The answers to a history of calls, and the connection after it. -/
def run (c : Connection σ β γ) : List Call → Logged (List Reply × Connection σ β γ)
  | [] => pure ([], c)
  | call :: rest => do
    let first ← c.perform call
    let more ← first.2.run rest
    return (first.1 :: more.1, more.2)

end Connection

end AtomicCss
