import AtomicCss.Tracker

/-!
# Histories of a Tracker

What a user can do with a tracker, as data.

A tracker's state is the result of the calls made on it, and most of what can be
said about a state is said about all states that some sequence of calls leads to.
So a call is a value, with a reply for each kind, and a history is a list of
calls.

## Main definitions

* `Tracker.Call`, `Tracker.Reply`: A call and what it answers.
* `Tracker.perform`: One call.
* `Tracker.run`: A history.

## Theorems

* `Tracker.run_append`: A history goes on where its first part ended.
-/

namespace AtomicCss

namespace Tracker

/-- Something that a user does with a tracker. -/
inductive Call
  | event (e : ClassEvent)
  | update (u : Update)
  | sweep (elements : List (NodeKey × String))
  | take
  deriving DecidableEq, Repr

/-- What a call answers. -/
inductive Reply
  | compiled (attr : Option String)
  | followed
  | swept (count : Nat)
  | taken (batch : List Update)
  deriving DecidableEq, Repr

variable {σ : Type} [Stylesheet σ]

/-- The answer to one call, and the tracker after it. -/
def perform (t : Tracker σ) : Call → Logged (Reply × Tracker σ)
  | .event e => (fun r => (.compiled r.1, r.2)) <$> t.handle e
  | .update u => (fun r => (.followed, r)) <$> t.follow u
  | .sweep elements => (fun r => (.swept r.1, r.2)) <$> t.sweep elements
  | .take => pure (.taken t.takeOutgoing.1, t.takeOutgoing.2)

/-- The answers to a history of calls, and the tracker after it. -/
def run (t : Tracker σ) : List Call → Logged (List Reply × Tracker σ)
  | [] => pure ([], t)
  | call :: rest => do
    let first ← t.perform call
    let more ← first.2.run rest
    return (first.1 :: more.1, more.2)

theorem run_append (t : Tracker σ) (calls more : List Call) :
    (t.run (calls ++ more)).value =
      ((t.run calls).value.1 ++ ((t.run calls).value.2.run more).value.1,
        ((t.run calls).value.2.run more).value.2) := by
  induction calls generalizing t with
  | nil => rfl
  | cons call rest ih =>
    simp only [List.cons_append, run, Logged.value_bind, Logged.value_pure, ih]

end Tracker

end AtomicCss
