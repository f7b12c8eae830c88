import AtomicCss.Text.Blank

/-!
# References to Custom Properties

The shorthand `--name` for `var(--name)` in a value.

A reference opens with two dashes. Its name reaches as far as it can over the
characters that are not blank and not one of `$`, `{`, `}`, and then gives
characters back from its end until it ends on a word boundary, so that in
`calc(--gap)` the bracket stays outside. A boundary lies between a word character
and anything else, the end of the text included. A run without any such end is no
reference, and text that is no reference is copied as it stands: whether the
property exists is not asked here.

The name may begin with any character of the run, a dash too. The scan goes on
right after a reference, so no character is wrapped twice.

## Main definitions

* `isNameChar`, `isWordChar`: The characters of a run, and those of a word.
* `backOff`: What is left of a run once its end lies on a word boundary.
* `referenceName`: The name of the reference that opens a text.
* `expandChars`, `expand`: A value with its references wrapped.
-/

namespace AtomicCss

namespace CustomProperty

open Text

/-- A character that a name may run over. -/
def isNameChar (c : Char) : Bool :=
  !(c == '$' || c == '\x7b' || c == '\x7d' || isBlank c)

/-- A character of a word: an ASCII letter or digit, or the underscore. -/
def isWordChar (c : Char) : Bool :=
  c.isAlphanum || c == '_'

/-- What is left of a run, given backwards, once characters have been given back
    from its end until it ends on a word boundary. The second argument is the
    character after the run, if there is one. -/
def backOff : List Char → Option Char → List Char
  | [], _ => []
  | last :: before, next =>
    if isWordChar last != next.any isWordChar then last :: before
    else backOff before (some last)

/-- The name of the reference whose two dashes stand right before the text; empty
    if there is none. -/
def referenceName (s : List Char) : List Char :=
  (backOff (s.takeWhile isNameChar).reverse (s.dropWhile isNameChar).head?).reverse

/-- A value with each reference wrapped in `var()`. -/
def expandChars : List Char → List Char
  | '-' :: '-' :: rest =>
    match referenceName rest with
    -- The second dash may open a reference of its own.
    | [] => '-' :: expandChars ('-' :: rest)
    | first :: more =>
      "var(--".toList ++ (first :: more) ++ ')' :: expandChars (rest.drop (more.length + 1))
  | c :: rest => c :: expandChars rest
  | [] => []
termination_by s => s.length
decreasing_by
  all_goals
    simp only [List.length_cons, List.length_drop]
    omega

/-- A value with each reference wrapped in `var()`. -/
def expand (value : String) : String :=
  String.ofList (expandChars value.toList)

example : expand "calc(--gap)" = "calc(var(--gap))" := by decide +kernel
example : expand "1px --a --" = "1px var(--a) --" := by decide +kernel

end CustomProperty

end AtomicCss
