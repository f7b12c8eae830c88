import AtomicCss.Synthesis
import AtomicCss.Tracker.Element

/-!
# Element Trackers

Keeping the class attributes of a document compiled.

A tracker hears about class attributes in two ways: somebody tells it of an
element directly, or it follows the updates of a host document. An attribute
with an underscore may hold utility tokens and is compiled; the host is asked to
write the result in its place, unless nothing would change. An attribute without
one holds no token that could be read, and is only remembered.

The host reports the write it was asked for like any other. Compiling it again
would be worse than useless: the names in it have lost the scope of the tokens
they came from, so each would get a second rule without any condition. The
tracker therefore remembers, for each element, the last write it asked for, and
lets one report of it pass. Any other report is news and is compiled, the report
of an earlier write that was overtaken included.

Changes leave in one batch, those of the stylesheet first, so that a rule arrives
with or before the class that needs it.

## Main definitions

* `ClassEvent`: News about the class attribute of an element.
* `Tracker`: The synthesizer, the tracked elements, the writes that wait.
* `Tracker.handle`: Taking news.
* `Tracker.isEcho`, `Tracker.report`: A class attribute that the host reports.
* `Tracker.follow`: An update of the host document.
* `Tracker.sweep`: Many elements at once.
* `Tracker.takeOutgoing`: The batch of changes for the host.
-/

namespace AtomicCss

open Text

/-- News about the class attribute of an element: it came with the element, or it
    took the place of another. -/
inductive ClassEvent
  | added (node : NodeKey) (attr : String)
  | changed (node : NodeKey) (attr : String)
  deriving DecidableEq, Repr

namespace ClassEvent

/-- The element. -/
def node : ClassEvent → NodeKey
  | added node _ | changed node _ => node

/-- The class attribute it has now. -/
def attr : ClassEvent → String
  | added _ attr | changed _ attr => attr

/-- What compiling the attribute is called in a log record. -/
def verb : ClassEvent → String
  | added _ _ => "compiled new element"
  | changed _ _ => "recompiled"

end ClassEvent

/-- The name of the attribute. In a report it may have any letter case. -/
def classAttribute : String := "class"

/-- The attribute may hold utility tokens: none can be read without an
    underscore. -/
def isUtility (attr : String) : Bool :=
  attr.toList.contains '_'

/-- The synthesizer, the tracked elements, and the writes that wait to be taken,
    oldest first. -/
structure Tracker (σ : Type) where
  synthesizer : Synthesizer σ
  elements : Elements
  outgoing : List Update

namespace Tracker

variable {σ : Type} [Stylesheet σ]

/-- A tracker that knows no element. -/
def new (sheet : σ) (config : Config) : Tracker σ :=
  { synthesizer := { sheet, config }, elements := {}, outgoing := [] }

/-- The stylesheet. -/
def sheet (t : Tracker σ) : σ := t.synthesizer.sheet

/-- The class attribute that an element has, as far as the tracker knows. -/
def classOf (t : Tracker σ) (node : NodeKey) : Option String :=
  t.elements[node]?.bind (·.attr)

/-- The tracker after an element's attribute was compiled. The host has to write
    the result, and its report is awaited, only if the result differs. -/
def settle (t : Tracker σ) (event : ClassEvent) (compiled : String) : Tracker σ :=
  let element := t.elements.getD event.node {}
  let same : Bool := compiled == event.attr
  { t with
    elements := t.elements.insert event.node
      { element with attr := some compiled, awaited := if same then none else some compiled }
    outgoing := if same then t.outgoing
      else t.outgoing ++ [.setAttr event.node classAttribute compiled] }

/-- Takes news. The answer is the compiled attribute, if it was compiled. -/
def handle (t : Tracker σ) (event : ClassEvent) : Logged (Option String × Tracker σ) :=
  if isUtility event.attr then do
    -- The element is looked up afterwards: compiling does not touch it.
    let compiled ← t.synthesizer.compile event.attr
    note .debug "synxia::driver"
      (event.verb ++ " " ++ event.node.label ++ ": " ++ quoted event.attr ++ " -> "
        ++ quoted compiled.1)
    return (some compiled.1, { t with synthesizer := compiled.2 }.settle event compiled.1)
  else
    -- What is awaited stays awaited: the host may not have seen the write yet.
    let element := t.elements.getD event.node {}
    return (none, { t with
      elements := t.elements.insert event.node { element with attr := some event.attr } })

/-- The report of an attribute is the one that is awaited. -/
def isEcho (t : Tracker σ) (node : NodeKey) (attr : String) : Bool :=
  (t.elements[node]?.bind (·.awaited)) == some attr

/-- The news in the report of an attribute. An element that is not tracked is taken
    for one that was there before. -/
def newsOf (t : Tracker σ) (node : NodeKey) (attr : String) : ClassEvent :=
  match t.elements[node]? with
  | none => .changed node attr
  | some element => if element.attr.isNone then .added node attr else .changed node attr

/-- Takes the report of a class attribute. The awaited one is no news. -/
def report (t : Tracker σ) (node : NodeKey) (attr : String) : Logged (Tracker σ) :=
  if t.isEcho node attr then
    return { t with elements := t.elements.modify node fun e => { e with awaited := none } }
  else (·.2) <$> t.handle (t.newsOf node attr)

/-- Follows one update of the host document. An element that is inserted starts
    anew, whatever was known under its key. -/
def follow (t : Tracker σ) (update : Update) : Logged (Tracker σ) :=
  match update with
  | .insertElement parent node _ _ =>
    return { t with elements := t.elements.insert node { parent := some parent } }
  | .setAttr node name value =>
    if sameCaseless name classAttribute then t.report node value else return t
  | .removeNode node => return { t with elements := t.elements.forget node }
  | .insertText _ _ _ _ | .endOfDocument => return t

/-- Takes the elements of a document that is there already. The answer is the
    number of attributes that were compiled. -/
def sweep (t : Tracker σ) : List (NodeKey × String) → Logged (Nat × Tracker σ)
  | [] => pure (0, t)
  | (node, attr) :: rest => do
    let first ← t.handle (.added node attr)
    let more ← first.2.sweep rest
    return (more.1 + if first.1.isSome then 1 else 0, more.2)

/-- The changes for the host, those of the stylesheet first, and the tracker
    without them. -/
def takeOutgoing (t : Tracker σ) : List Update × Tracker σ :=
  let drained := Stylesheet.drain t.sheet
  (drained.1 ++ t.outgoing,
    { t with synthesizer := { t.synthesizer with sheet := drained.2 }, outgoing := [] })

instance : Subscriber (Tracker σ) where
  apply t update := do
    let followed ← t.follow update
    return (.ok (), followed)
  takeOutgoing := takeOutgoing

end Tracker

end AtomicCss
