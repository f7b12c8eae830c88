import AtomicCss.Config
import AtomicCss.Stylesheet
import AtomicCss.Token

/-!
# Rule Synthesis

From the tokens of a class attribute to rules in a stylesheet.

Each token that has a directive adds the directive's rule to the sheet and is
replaced by the directive's class name. A token without one disappears: it cannot
have an effect, and leaving it would make the attribute look as if it had. The
order is that of the tokens, both in the sheet and in the attribute.

## Main definitions

* `Synthesizer`: A stylesheet, and the configuration that tokens are read with.
* `Synthesizer.synthesize`: The rule of one directive.
* `Synthesizer.resolve`: One token.
* `Synthesizer.resolveAll`: A list of tokens.
* `Synthesizer.compile`: A whole class attribute.
-/

namespace AtomicCss

open Text

/-- A stylesheet, and the configuration that tokens are read with. -/
structure Synthesizer (σ : Type) where
  sheet : σ
  config : Config

namespace Synthesizer

/-- The part of the library that speaks in the records below. -/
def logTarget : String := "synxia::orchestrator"

variable {σ : Type} [Stylesheet σ]

/-- The class name of a directive, whose rule is thereby added to the sheet. -/
def synthesize (s : Synthesizer σ) (d : Directive) : Logged (String × Synthesizer σ) := do
  note .trace logTarget ("emit " ++ d.ruleText)
  let sheet ← Stylesheet.append s.sheet d.ruleText
  return (d.className, { s with sheet })

/-- The class name of a token, if it has a directive. -/
def resolve (s : Synthesizer σ) (token : String) : Logged (Option String × Synthesizer σ) :=
  match Token.read s.config.schemeMatch token with
  | .ok d => do
    let made ← s.synthesize d
    return (some made.1, made.2)
  | .error reason => do
    if s.config.traceDroppedTokens then
      note .trace logTarget s!"dropped {quoted token}: {reason.name}"
    return (none, s)

/-- The class names of a list of tokens, without those that have no directive. -/
def resolveAll (s : Synthesizer σ) : List String → Logged (List String × Synthesizer σ)
  | [] => pure ([], s)
  | token :: rest => do
    let first ← s.resolve token
    let more ← first.2.resolveAll rest
    return (first.1.toList ++ more.1, more.2)

/-- The class attribute that takes the place of the given one. -/
def compile (s : Synthesizer σ) (attr : String) : Logged (String × Synthesizer σ) := do
  let resolved ← s.resolveAll (words attr)
  return (String.intercalate " " resolved.1, resolved.2)

end Synthesizer

end AtomicCss
