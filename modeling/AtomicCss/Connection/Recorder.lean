import AtomicCss.Document.Update

/-!
# Recording Subscribers

Two subscribers that only keep a record, to look at a connection with.

Both keep the updates they get, and both reject an attribute that is called
`reject`. The talkative one answers every other attribute by setting one of its
own on the same node, the silent one has nothing to tell.

## Main definitions

* `Recorder`: The talkative one.
* `SilentRecorder`: The silent one.
-/

namespace AtomicCss

/-- A subscriber that keeps the updates it gets, in order, and answers
    attributes. -/
structure Recorder where
  seen : List Update := []
  outgoing : List Update := []
  deriving DecidableEq, Repr, Inhabited

namespace Recorder

/-- The answer to an update. -/
def answer : Update → List Update
  | .setAttr node _ _ => [.setAttr node "data-seen" "1"]
  | _ => []

/-- The recorder after an update, or the reason of its rejection. A rejected update
    is neither kept nor answered. -/
def record (r : Recorder) (update : Update) : Except String Unit × Recorder :=
  let kept := { r with seen := r.seen ++ [update], outgoing := r.outgoing ++ answer update }
  match update with
  | .setAttr _ name value =>
    if name = "reject" then (.error ("rejected " ++ value), r) else (.ok (), kept)
  | _ => (.ok (), kept)

instance : Subscriber Recorder where
  apply r update := pure (r.record update)
  takeOutgoing r := (r.outgoing, { r with outgoing := [] })

end Recorder

/-- A recorder that has nothing to tell. -/
structure SilentRecorder where
  recorder : Recorder := {}
  deriving DecidableEq, Repr, Inhabited

namespace SilentRecorder

/-- The updates it got. -/
def seen (r : SilentRecorder) : List Update := r.recorder.seen

instance : Subscriber SilentRecorder where
  apply r update :=
    pure ((r.recorder.record update).1, { recorder := (r.recorder.record update).2 })

end SilentRecorder

end AtomicCss
