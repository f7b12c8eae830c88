import AtomicCss.Text.Cut

/-!
# Media Conditions

The conditions under which a rule applies.

A token may ask for a screen of a certain width, by the name of a breakpoint, or
for a preferred colour scheme, by a marker. A rule has one condition at most:
where a token asks for both, the scheme wins, so a condition is one or the other
and never a pair.

A scheme's marker can be recognised in two ways. Read `leading`, it has to open
the token and is taken off. Read `anywhere`, it may occur at any place, and what
is left is everything after the token's first dot, wherever that is. Of two
markers the dark one wins.

## Main definitions

* `Breakpoint`: The named screen widths, `Breakpoint.ofName?` to look one up.
* `ColorScheme`: The two schemes and their markers.
* `SchemeMatch`: The two ways to recognise a marker.
* `ColorScheme.detect`: The scheme of a token and what is left of the token.
* `Condition`: What a rule is conditional on.
* `Condition.wrap`: A rule inside its media block.
-/

namespace AtomicCss

open Text

/-- The named screen widths. -/
inductive Breakpoint
  | phone
  | tablet
  | laptop
  | pc
  deriving DecidableEq, Repr

namespace Breakpoint

/-- All breakpoints, from the narrowest. -/
def all : List Breakpoint := [phone, tablet, laptop, pc]

/-- The name that authors write before the `@`. -/
def name : Breakpoint → String
  | phone => "phone"
  | tablet => "tablet"
  | laptop => "laptop"
  | pc => "pc"

/-- The media feature that holds on such a screen. -/
def expression : Breakpoint → String
  | phone => "(max-width: 480px)"
  | tablet => "(481px<=width<=768px)"
  | laptop => "(769px<=width<=1024px)"
  | pc => "(min-width: 1025px)"

/-- The breakpoint with the given name, letter case included. -/
def ofName? (name : String) : Option Breakpoint :=
  all.find? fun b => b.name == name

theorem ofName?_eq_some_iff {name : String} {b : Breakpoint} :
    ofName? name = some b ↔ name = b.name := by
  constructor
  · intro h
    have := List.find?_some h
    exact (eq_of_beq this).symm
  · rintro rfl
    cases b <;> rfl

end Breakpoint

/-- The colour schemes that a reader may prefer. -/
inductive ColorScheme
  | dark
  | light
  deriving DecidableEq, Repr

/-- How a scheme's marker is recognised in a token. -/
inductive SchemeMatch
  | anywhere
  | leading
  deriving DecidableEq, Repr, Inhabited

namespace SchemeMatch

/-- The name of a way to match, as a configuration spells it. -/
def name : SchemeMatch → String
  | anywhere => "substring"
  | leading => "prefix"

/-- Both ways, the default one first. -/
def all : List SchemeMatch := [anywhere, leading]

/-- The way to match with the given name, in any letter case. -/
def ofName? (name : String) : Option SchemeMatch :=
  all.find? fun m => sameCaseless name m.name

end SchemeMatch

namespace ColorScheme

/-- Both schemes. The dark one comes first because it wins where both markers
    occur. -/
def all : List ColorScheme := [dark, light]

/-- The name of a scheme. -/
def name : ColorScheme → String
  | dark => "dark"
  | light => "light"

/-- The marker that authors write: the name and a dot. -/
def marker : ColorScheme → String
  | dark => "dark."
  | light => "light."

/-- The media feature that holds where the scheme is preferred. -/
def expression : ColorScheme → String
  | dark => "(prefers-color-scheme: dark)"
  | light => "(prefers-color-scheme: light)"

/-- The scheme that a token is marked with, and the token without the mark. -/
def detect : SchemeMatch → List Char → Option (ColorScheme × List Char)
  | .anywhere, token =>
    match all.find? fun scheme => occursIn scheme.marker.toList token with
    | none => none
    -- The marker ends in a dot, so there is one to cut at.
    | some scheme => (cutAt '.' token).map fun cut => (scheme, cut.2)
  | .leading, token =>
    all.findSome? fun scheme =>
      (dropLead? scheme.marker.toList token).map fun rest => (scheme, rest)

end ColorScheme

/-- What a rule is conditional on: one media feature. -/
inductive Condition
  | breakpoint (b : Breakpoint)
  | colorScheme (scheme : ColorScheme)
  deriving DecidableEq, Repr

namespace Condition

/-- The media feature. -/
def expression : Condition → String
  | breakpoint b => b.expression
  | colorScheme scheme => scheme.expression

/-- The word by which authors ask for the condition. -/
def name : Condition → String
  | breakpoint b => b.name
  | colorScheme scheme => scheme.name

/-- A rule inside the media block of its condition. -/
def wrap (condition : Condition) (rule : String) : String :=
  "@media only screen and " ++ condition.expression ++ "\x7b" ++ rule ++ "\x7d"

end Condition

end AtomicCss
