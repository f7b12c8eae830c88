import AtomicCss.Directive
import AtomicCss.Log
import AtomicCss.Text.Quoted

/-!
# Utility Tokens

Reading one token of a class attribute.

A token says, from left to right, under which breakpoint, in which colour scheme
and in which pseudo-classes a declaration holds, and then the declaration:

    [breakpoint@][dark.|light.][pseudo:]*property_value

Only the first occurrence of a separator counts, so a value that needs one of
them has to escape it. A part that is not there is skipped, and a name before the
`@` that is no breakpoint is left where it is: it may still be part of a property.

The reader is a machine of few stages, each of which takes one part off the front
of the token. It can be stopped between two stages to be looked at; `finish` runs
it to the end. What is known at a stage is part of the stage: the two halves of
the declaration exist from the split on, the reason of a failure exists in a
failure.

## Main definitions

* `DropReason`: Why a token has no declaration.
* `Stage`: How far the reader has come.
* `Parser`: The reader between two stages.
* `Parser.step`: One transition.
* `Parser.finish`: All remaining transitions, and the directive.
* `read`: The directive of a token, or why there is none.
* `parse`: The directive of a token, with a record of a failure.

## Theorems

* `Parser.distance_step`: A step that is not the last brings the end nearer.
-/

namespace AtomicCss

namespace Token

open Text

/-- Why a token has no declaration. -/
inductive DropReason
  | missingSeparator
  | emptyProperty
  | emptyValue
  deriving DecidableEq, Repr

/-- The name of the reason in a log record. -/
def DropReason.name : DropReason → String
  | missingSeparator => "MissingSeparator"
  | emptyProperty => "EmptyProperty"
  | emptyValue => "EmptyValue"

/-- How far the reader has come. -/
inductive Stage
  | start
  | breakpointChecked
  | schemeChecked
  | chainChecked
  | split (property value : List Char)
  | done (property value : List Char)
  | invalid (reason : DropReason)
  deriving DecidableEq, Repr

namespace Stage

/-- No transition leaves the stage. -/
def isTerminal : Stage → Bool
  | done _ _ | invalid _ => true
  | _ => false

/-- The number of transitions to the end, on the longest way. -/
def distance : Stage → Nat
  | start => 5
  | breakpointChecked => 4
  | schemeChecked => 3
  | chainChecked => 2
  | split _ _ => 1
  | done _ _ | invalid _ => 0

end Stage

/-- The reader between two stages: what it has not read yet, and the scope it has
    collected. -/
structure Parser where
  stage : Stage
  rest : List Char
  media : Option Condition
  selector : String
  schemeMatch : SchemeMatch
  deriving DecidableEq, Repr

/-- The pseudo-classes at the front of a token, each behind its colon, and what
    is left. A colon counts only if it stands before the first underscore, and
    without any underscore no colon counts. -/
def peelChain (token : List Char) : List Char × List Char :=
  match _ : cutAt ':' token with
  | none => ([], token)
  | some (name, rest) =>
    -- The colon stands before the first underscore.
    if '_' ∉ name ∧ '_' ∈ rest then
      let more := peelChain rest
      (':' :: name ++ more.1, more.2)
    else ([], token)
termination_by token.length
decreasing_by
  all_goals exact length_lt_of_cutAt ‹_›

/-- The two halves of a declaration, on either side of the first underscore. -/
def splitDeclaration (token : List Char) : Except DropReason (List Char × List Char) :=
  match cutAt '_' token with
  | none => .error .missingSeparator
  | some (property, value) =>
    if property.isEmpty then .error .emptyProperty
    else if value.isEmpty then .error .emptyValue
    else .ok (property, value)

/-- The breakpoint named before the first `@`, and the token after it. -/
def breakpoint? (token : List Char) : Option (Breakpoint × List Char) :=
  match cutAt '@' token with
  | none => none
  | some (name, rest) => (Breakpoint.ofName? (String.ofList name)).map fun b => (b, rest)

namespace Parser

/-- The reader before a token. -/
def start (schemeMatch : SchemeMatch) (token : String) : Parser :=
  { stage := .start, rest := token.toList, media := none, selector := "", schemeMatch }

/-- One transition. A scheme replaces a breakpoint that was read before it. -/
def step (p : Parser) : Parser :=
  match p.stage with
  | .start =>
    match breakpoint? p.rest with
    | none => { p with stage := .breakpointChecked }
    | some (b, rest) =>
      { p with stage := .breakpointChecked, rest, media := some (.breakpoint b) }
  | .breakpointChecked =>
    match ColorScheme.detect p.schemeMatch p.rest with
    | none => { p with stage := .schemeChecked }
    | some (scheme, rest) =>
      { p with stage := .schemeChecked, rest, media := some (.colorScheme scheme) }
  | .schemeChecked =>
    let peeled := peelChain p.rest
    { p with
      stage := .chainChecked
      rest := peeled.2
      selector := p.selector ++ String.ofList peeled.1 }
  | .chainChecked =>
    match splitDeclaration p.rest with
    | .ok (property, value) => { p with stage := .split property value }
    | .error reason => { p with stage := .invalid reason }
  | .split property value => { p with stage := .done property value }
  | .done _ _ | .invalid _ => p

/-- A step from a stage that is not the last brings the end nearer. -/
theorem distance_step (p : Parser) (h : p.stage.isTerminal = false) :
    p.step.stage.distance < p.stage.distance := by
  obtain ⟨stage, rest, media, selector, schemeMatch⟩ := p
  cases stage with
  | start => simp only [step]; split <;> simp [Stage.distance]
  | breakpointChecked => simp only [step]; split <;> simp [Stage.distance]
  | schemeChecked => simp [step, Stage.distance]
  | chainChecked => simp only [step]; split <;> simp [Stage.distance]
  | split => simp [step, Stage.distance]
  | done => simp [Stage.isTerminal] at h
  | invalid => simp [Stage.isTerminal] at h

/-- The directive at the end of all remaining transitions, its two halves with
    their escapes read, or why there is none. -/
def finish (p : Parser) : Except DropReason Directive :=
  match _ : p.stage with
  | .done property value =>
    .ok {
      property := Escape.decode (String.ofList property)
      value := Escape.decode (String.ofList value)
      media := p.media
      selector := p.selector }
  | .invalid reason => .error reason
  | .start | .breakpointChecked | .schemeChecked | .chainChecked | .split _ _ => finish p.step
termination_by p.stage.distance
decreasing_by
  all_goals exact distance_step p (by simp_all [Stage.isTerminal])

end Parser

/-- The directive of a token, or why it has none. -/
def read (schemeMatch : SchemeMatch) (token : String) : Except DropReason Directive :=
  (Parser.start schemeMatch token).finish

/-- The directive of a token. A token without one leaves a record that tells the
    reason. -/
def parse (schemeMatch : SchemeMatch) (token : String) : Logged (Option Directive) :=
  match read schemeMatch token with
  | .ok directive => pure (some directive)
  | .error reason => do
    note .trace "synxia::syntax" s!"dropping token {quoted token}: {reason.name}"
    return none

end Token

end AtomicCss
