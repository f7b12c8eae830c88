import AtomicCss.Document.Update

/-!
# Stylesheets

Where rules go.

A stylesheet takes rules one after the other and never looks into them. One kind
keeps them in memory, to be printed as a text. Another lives inside a document:
there every rule is a change that the other side has to be told, so a stylesheet
can be asked for the changes it has made. The one in memory has none.

A rule that is already there is added all the same. Order decides between two
rules, so leaving out the second would not always be harmless.

## Main definitions

* `Stylesheet`: What takes rules.
* `MemorySheet`: The rules in a list.
* `MemorySheet.css`: The rules as one text.
-/

namespace AtomicCss

/-- A place for rules. -/
class Stylesheet (σ : Type) where
  /-- Adds a rule after those that are there. -/
  append : σ → String → Logged σ
  /-- The changes of the document since the last time, which are thereby forgotten. -/
  drain : σ → List Update × σ := fun s => ([], s)

/-- A stylesheet in memory: its rules, in order. -/
structure MemorySheet where
  rules : Array String := #[]
  deriving DecidableEq, Repr, Inhabited

namespace MemorySheet

instance : Stylesheet MemorySheet where
  append sheet rule := pure { sheet with rules := sheet.rules.push rule }

/-- The rules as one text, a line for each. -/
def css (sheet : MemorySheet) : String :=
  String.intercalate "\n" sheet.rules.toList

@[simp]
theorem rules_append (sheet : MemorySheet) (rule : String) :
    (Stylesheet.append sheet rule).value.rules = sheet.rules.push rule := rfl

@[simp]
theorem log_append (sheet : MemorySheet) (rule : String) :
    (Stylesheet.append sheet rule).log = [] := rfl

@[simp]
theorem drain_eq (sheet : MemorySheet) : Stylesheet.drain sheet = ([], sheet) := rfl

end MemorySheet

end AtomicCss
