import AtomicCss.CustomProperty
import AtomicCss.Escape
import AtomicCss.Media

/-!
# Directives

What a token asks for, and the rule that grants it.

A directive is one declaration, `property: value`, with the condition and the
pseudo-classes it is scoped to. Its class name depends on the declaration alone:
both halves escaped, an underscore between them. The rule carries the scope, so
two tokens that differ only in scope share one class name and have two rules.

The declaration is written with the plain value, its references to custom
properties wrapped; only the class name is escaped.

## Main definitions

* `Directive`: The declaration and its scope.
* `Directive.className`: The class name an element needs for it.
* `Directive.ruleText`: The rule that gives the class its effect.
-/

namespace AtomicCss

/-- One declaration, the condition it is subject to, and the pseudo-classes it
    applies in, as they stand behind a class selector: `:hover:focus`. -/
structure Directive where
  property : String
  value : String
  media : Option Condition
  selector : String
  deriving DecidableEq, Repr

namespace Directive

/-- The class name an element needs for the declaration. -/
def className (d : Directive) : String :=
  Escape.encode d.property ++ "_" ++ Escape.encode d.value

/-- The declaration as a rule writes it. -/
def declaration (d : Directive) : String :=
  d.property ++ ":" ++ CustomProperty.expand d.value

/-- The rule without its condition. -/
def styleRule (d : Directive) : String :=
  "." ++ d.className ++ d.selector ++ "\x7b" ++ d.declaration ++ "\x7d"

/-- The rule that gives the class its effect, inside the media block of its
    condition if it has one. -/
def ruleText (d : Directive) : String :=
  match d.media with
  | some condition => condition.wrap d.styleRule
  | none => d.styleRule

end Directive

end AtomicCss
