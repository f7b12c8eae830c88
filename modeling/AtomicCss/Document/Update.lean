import AtomicCss.Document.NodeKey
import AtomicCss.Log

/-!
# Document Updates

The changes of a document, one by one, and those who follow them.

Both sides of a connection describe what they did to the document in the same
words: an element or a text was put under a parent at a place, an attribute was
set, a node was taken out, the document is complete. Whoever wants to know
subscribes. A subscriber takes the updates one at a time and may reject one; it
may also have changes of its own to tell, which it gives away all at once.

## Main definitions

* `Update`: One change.
* `Subscriber`: What takes updates and may have changes of its own.
-/

namespace AtomicCss

/-- One change of a document. -/
inductive Update
  | insertElement (parent node : NodeKey) (tag : String) (pos : Nat)
  | insertText (parent node : NodeKey) (text : String) (pos : Nat)
  | setAttr (node : NodeKey) (name value : String)
  | removeNode (node : NodeKey)
  | endOfDocument
  deriving DecidableEq, Repr

/-- A follower of a document. -/
class Subscriber (σ : Type) where
  /-- Takes one update. The answer is the reason of a rejection, if it is rejected,
      and the state after it. -/
  apply : σ → Update → Logged (Except String Unit × σ)
  /-- The follower's own changes since the last time, which it thereby forgets. Most
      have none. -/
  takeOutgoing : σ → List Update × σ := fun s => ([], s)

end AtomicCss
