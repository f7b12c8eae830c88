import AtomicCss.Config
import AtomicCss.Stylesheet

/-!
# Stylesheets in a Document

A `<style>` element that grows by one text node per rule.

The element is made when the first rule arrives, so that a document without
utility classes gets no empty element. Each rule becomes a text node of its own,
at the place given by the number of rules before it. All of it is said in updates,
which wait until somebody asks for them.

The sheet is a producer of keys. The things it names are the numbers from zero:
the element itself, then its rules in order.

## Main definitions

* `StyleElement`: The sheet.
* `StyleElement.new`: A sheet without rules.
* `StyleElement.ensureNode`: The element, made now if it was not there.
-/

namespace AtomicCss

/-- A stylesheet in a document: where its element goes and which id it has, its
    producer of keys, the element once it is there, the number of rules, and the
    updates that wait. -/
structure StyleElement where
  head : NodeKey
  pos : Nat
  id : String
  keys : KeyManager Nat
  node : Option NodeKey
  ruleCount : Nat
  pending : List Update

namespace StyleElement

/-- The number at which counting the rules ends. -/
def maxRuleCount : Nat := UInt32.size - 1

/-- A sheet without rules, under `head` at the place `pos`, with a producer of keys
    of its own, and the session after. -/
def new (space : KeySpace) (head : NodeKey) (pos : Nat) (config : Config) :
    StyleElement × KeySpace :=
  let registered : KeyManager Nat × KeySpace := space.register
  ({ head, pos, id := config.styleElementId, keys := registered.1, node := none,
     ruleCount := 0, pending := [] }, registered.2)

/-- The updates that make the element. -/
def creation (sheet : StyleElement) (node : NodeKey) : List Update :=
  [.insertElement sheet.head node "style" sheet.pos, .setAttr node "id" sheet.id]

/-- The key of the element, and the sheet with the element in it. -/
def ensureNode (sheet : StyleElement) : Logged (NodeKey × StyleElement) :=
  match sheet.node with
  | some node => pure (node, sheet)
  | none => do
    let node := (sheet.keys.keyOf 0).1
    note .debug "synxia_orchestrator::sink"
      ("creating <style id=" ++ Text.quoted sheet.id ++ "> as " ++ node.label ++ " under "
        ++ sheet.head.label)
    return (node, { sheet with
      keys := (sheet.keys.keyOf 0).2
      node := some node
      pending := sheet.pending ++ sheet.creation node })

/-- The sheet with one more text node, under an element that is there. -/
def appendText (sheet : StyleElement) (parent : NodeKey) (rule : String) : StyleElement :=
  let count := min (sheet.ruleCount + 1) maxRuleCount
  { sheet with
    keys := (sheet.keys.keyOf count).2
    ruleCount := count
    pending := sheet.pending ++
      [.insertText parent (sheet.keys.keyOf count).1 rule sheet.ruleCount] }

instance : Stylesheet StyleElement where
  append sheet rule := do
    let made ← sheet.ensureNode
    return made.2.appendText made.1 rule
  drain sheet := (sheet.pending, { sheet with pending := [] })

end StyleElement

end AtomicCss
