import AtomicCss.Token

/-!
# Token Reader with Registers

The token reader as a machine of registers that are written independently.

A stage can carry what is known at it, and then there are no halves of a declaration
before the split and always some at the end. This machine carries nothing with its
stage. The halves have a register of their own, empty at first; the chain of
pseudo-classes grows in another, name by name, while the loop that finds it moves the
rest. What the registers have to do with each other is not said by their types. A
machine at its end without halves can be written down, so there has to be an answer
for it as well.

Someone who looks at the machine between two steps sees these registers.

## Main definitions

* `Mark`: How far the machine has come, and nothing else.
* `Registers`: The machine between two steps.
* `Registers.stripChain`: The loop over the pseudo-classes.
* `Registers.step`: One transition.
* `Registers.toEnd`: All remaining transitions.
* `Registers.answer`: What the registers hold at the end.
* `Registers.finish`: The answer at the end of all remaining transitions.
-/

namespace AtomicCss

namespace Token

/-- How far the machine has come. -/
inductive Mark
  | start
  | breakpointChecked
  | schemeChecked
  | chainChecked
  | split
  | done
  | invalid (reason : DropReason)
  deriving DecidableEq, Repr

namespace Mark

/-- No transition leaves the mark. -/
def isTerminal : Mark → Bool
  | done | invalid _ => true
  | _ => false

/-- The number of transitions to the end, on the longest way. -/
def distance : Mark → Nat
  | start => 5
  | breakpointChecked => 4
  | schemeChecked => 3
  | chainChecked => 2
  | split => 1
  | done | invalid _ => 0

end Mark

/-- The machine between two steps. -/
structure Registers where
  mark : Mark
  rest : List Char
  media : Option Condition
  selector : String
  halves : Option (List Char × List Char)
  schemeMatch : SchemeMatch
  deriving DecidableEq, Repr

namespace Registers

/-- The machine before a token. -/
def start (schemeMatch : SchemeMatch) (token : String) : Registers :=
  { mark := .start, rest := token.toList, media := none, selector := "", halves := none,
    schemeMatch }

/-- Takes the name of a breakpoint off the front, its `@` included. -/
def stripBreakpoint (r : Registers) : Registers :=
  match breakpoint? r.rest with
  | none => r
  | some (b, rest) => { r with media := some (.breakpoint b), rest }

/-- Takes the marker of a scheme off. The scheme replaces a breakpoint. -/
def stripScheme (r : Registers) : Registers :=
  match ColorScheme.detect r.schemeMatch r.rest with
  | none => r
  | some (scheme, rest) => { r with media := some (.colorScheme scheme), rest }

/-- Takes names off the front as long as there is a colon before the first underscore,
    and puts each of them into the selector. -/
def stripChain (r : Registers) : Registers :=
  if ':' ∈ r.rest ∧ '_' ∈ r.rest ∧ r.rest.idxOf ':' < r.rest.idxOf '_' then
    stripChain { r with
      rest := r.rest.drop (r.rest.idxOf ':' + 1)
      selector := (r.selector.push ':') ++ String.ofList (r.rest.take (r.rest.idxOf ':')) }
  else r
termination_by r.rest.length
decreasing_by
  rename_i h
  have hlt := List.idxOf_lt_length_of_mem h.1
  simp only [List.length_drop]
  omega

/-- One transition. -/
def step (r : Registers) : Registers :=
  match r.mark with
  | .start => { r.stripBreakpoint with mark := .breakpointChecked }
  | .breakpointChecked => { r.stripScheme with mark := .schemeChecked }
  | .schemeChecked => { r.stripChain with mark := .chainChecked }
  | .chainChecked =>
    match splitDeclaration r.rest with
    | .ok halves => { r with mark := .split, halves := some halves }
    | .error reason => { r with mark := .invalid reason }
  | .split | .done => { r with mark := .done }
  | .invalid reason => { r with mark := .invalid reason }

/-- A step from a mark that is not the last brings the end nearer. -/
theorem distance_step (r : Registers) (h : r.mark.isTerminal = false) :
    r.step.mark.distance < r.mark.distance := by
  cases hmark : r.mark with
  | start | breakpointChecked | schemeChecked | split =>
      simp only [step, hmark, Mark.distance, Nat.reduceLT]
  | chainChecked =>
      simp only [step, hmark]
      split
      · simp only [Mark.distance, Nat.reduceLT]
      · simp only [Mark.distance, Nat.reduceLT]
  | done | invalid =>
      simp only [hmark, Mark.isTerminal, Bool.true_eq_false] at h

/-- The machine at the end of all remaining transitions. -/
def toEnd (r : Registers) : Registers :=
  if r.mark.isTerminal then r else r.step.toEnd
termination_by r.mark.distance
decreasing_by
  exact distance_step r (by simp_all only [Bool.not_eq_true])

/-- What the registers hold at the end: the directive, its two halves with their escapes
    read, or why there is none. Registers that fit neither have no separator. -/
def answer (r : Registers) : Except DropReason Directive :=
  match r.mark, r.halves with
  | .done, some (property, value) =>
    .ok {
      property := Escape.decode (String.ofList property)
      value := Escape.decode (String.ofList value)
      media := r.media
      selector := r.selector }
  | .invalid reason, _ => .error reason
  | _, _ => .error .missingSeparator

/-- The answer at the end of all remaining transitions. -/
def finish (r : Registers) : Except DropReason Directive :=
  r.toEnd.answer

end Registers

end Token

end AtomicCss
