import AtomicCss.Log
import AtomicCss.Media
import AtomicCss.Text.Blank
import AtomicCss.Text.Quoted

/-!
# Configuration

What a user can choose, and the variables that choose it.

There are three choices: the id of the style element, the way a colour scheme's
marker is recognised, and whether a dropped token leaves a record. Each has a
variable, and a variable that is absent or makes no sense leaves the default in
place; variables never fail, the worst they get is a warning.

An id counts as absent if it is blank, but is otherwise taken as it stands. The
way to match is taken without the blanks around it and in any letter case. The
record of dropped tokens is switched off by `0` and by nothing else.

## Main definitions

* `Config`: The three choices.
* `Config.ofVars`: The choices that variables make.
-/

namespace AtomicCss

open Text

/-- The id of the style element where nobody chose another. -/
def defaultStyleId : String := "synxia-style"

/-- What a user can choose. -/
structure Config where
  styleElementId : String := defaultStyleId
  schemeMatch : SchemeMatch := .anywhere
  traceDroppedTokens : Bool := true
  deriving DecidableEq, Repr, Inhabited

namespace Config

/-- The variable for the id of the style element. -/
def styleIdVar : String := "SYNXIA_STYLE_ID"

/-- The variable for the way to match. -/
def schemeMatchVar : String := "SYNXIA_COLOR_SCHEME_MATCH"

/-- The variable for the record of dropped tokens. -/
def traceDroppedVar : String := "SYNXIA_TRACE_DROPPED"

/-- The id that a variable chooses. -/
def styleIdOf (value : Option String) : String :=
  match value with
  | none => defaultStyleId
  | some id => if (trim id).isEmpty then defaultStyleId else id

/-- The way to match that a variable chooses, with a warning about a name that is
    none. -/
def schemeMatchOf (value : Option String) : Logged SchemeMatch :=
  match value with
  | none => pure .anywhere
  | some name =>
    match SchemeMatch.ofName? (trim name) with
    | some m => pure m
    | none => do
      note .warn "synxia_orchestrator::config"
        (schemeMatchVar ++ "=" ++ quoted name ++ " is not substring or prefix; using substring")
      return .anywhere

/-- The choices that variables make. The argument gives the value of a variable,
    if it has one. -/
def ofVars (lookup : String → Option String) : Logged Config := do
  let schemeMatch ← schemeMatchOf (lookup schemeMatchVar)
  return {
    styleElementId := styleIdOf (lookup styleIdVar)
    schemeMatch
    traceDroppedTokens := lookup traceDroppedVar != some "0" }

end Config

end AtomicCss
