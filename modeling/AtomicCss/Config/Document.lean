import AtomicCss.Config
import AtomicCss.Json.Reader

/-!
# Configuration Documents

A configuration written as a JSON document.

The document is an object with a member for each choice, or an array with the
choices in order. A choice that is not made has its default: a member that is
missing, or a place after the array's end. Members with other names are ignored,
whatever they hold, so that a document may carry more than this library reads.

Unlike variables a document is written to be read by a program, and anything odd
in it is refused: a choice of the wrong type, made twice, or with a name in
another letter case. The caller learns that the document is invalid and no more.

## Main definitions

* `Config.InvalidDocument`: Why a document is refused.
* `Config.ofValue?`: The configuration that a value holds.
* `Config.ofDocument`: The configuration that a document holds.
-/

namespace AtomicCss

open Json (Value)

namespace Config

/-- Why a document is refused: it is no JSON, or it holds something else than a
    configuration. -/
inductive InvalidDocument
  | notJson
  | notConfiguration
  deriving DecidableEq, Repr

/-- What a caller learns, which is the same for both reasons. -/
def InvalidDocument.message (_ : InvalidDocument) : String :=
  "invalid synxia configuration"

/-- The text that a value holds. -/
def textOf? : Value → Option String
  | .string items => Json.text? items
  | _ => none

/-- The truth value that a value holds. -/
def boolOf? : Value → Option Bool
  | .bool b => some b
  | _ => none

/-- The way to match that a value names. The name may also stand as the only
    member of an object, with `null` for its value. -/
def matchOf? (v : Value) : Option SchemeMatch := do
  let name ← match v with
    | .object [(key, .null)] => Json.text? key
    | _ => textOf? v
  SchemeMatch.all.find? fun m => m.name == name

/-- A choice that may be left open. -/
def choice? (default : α) (read? : Value → Option α) : Option Value → Option α
  | none => some default
  | some v => read? v

/-- The configuration with the given choices. -/
def ofChoices? (styleId schemeMatch traceDropped : Option Value) : Option Config := do
  return {
    styleElementId := ← choice? defaultStyleId textOf? styleId
    schemeMatch := ← choice? .anywhere matchOf? schemeMatch
    traceDroppedTokens := ← choice? true boolOf? traceDropped }

/-- The member with the given name, if there is one. The outer `none` says that
    the name is given twice. -/
def member? (name : String) (members : List (String × Value)) : Option (Option Value) :=
  match members.filter fun m => m.1 == name with
  | [] => some none
  | [m] => some (some m.2)
  | _ => none

/-- The configuration that a value holds. -/
def ofValue? : Value → Option Config
  | .object members => do
    let named ← members.mapM fun m => (Json.text? m.1).map fun name => (name, m.2)
    ofChoices? (← member? "style_element_id" named) (← member? "color_scheme_match" named)
      (← member? "trace_dropped_tokens" named)
  | .array choices =>
    if choices.length ≤ 3 then ofChoices? choices[0]? choices[1]? choices[2]? else none
  | _ => none

/-- The configuration that a document holds. -/
def ofDocument (document : String) : Except InvalidDocument Config :=
  match Json.parse? document with
  | none => .error .notJson
  | some v =>
    match ofValue? v with
    | none => .error .notConfiguration
    | some config => .ok config

end Config

end AtomicCss
