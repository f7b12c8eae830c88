import AtomicCss.Text.Cut

/-!
# Escapes in Class Names

How a text of any characters travels in a class name.

A class name is safe everywhere if it holds ASCII letters and digits only, so
any other character is written as an escape: its code point in decimal between
two fences, `__35__` for `#`. The tilde is a second spelling of the space, for
authors who write class names by hand; only reading knows it.

Writing works character by character. Reading has to find the escapes in a text
that anybody may have written, where fences stand alone, overlap or enclose a
number that is no character. It looks for the first fence, copies what stands
before it, and tries to read an escape there. If there is none, one underscore
is an ordinary character and the search starts again right after it, so that in
`___35__` the escape is still found.

## Main definitions

* `encodeChar`, `encodeChars`, `encode`: Writing.
* `charOfCode?`: The character with a given code point.
* `readEscape?`: The escape at the front of a text.
* `seekFence`: The text cut in front of its first fence.
* `unescape`: Reading the escapes.
* `decodeChars`, `decode`: Reading the escapes and the tildes.
-/

namespace AtomicCss

namespace Escape

open Text

/-- The marker that opens and closes an escape. -/
def fence : List Char := ['_', '_']

/-- The spelling of a space that authors may write in a token. -/
def spaceMark : Char := '~'

/-- One character of a class name: itself if it is safe, an escape otherwise. -/
def encodeChar (c : Char) : List Char :=
  if c.isAlphanum then [c] else fence ++ Nat.toDigits 10 c.toNat ++ fence

/-- The safe form of a text, character by character. -/
def encodeChars (s : List Char) : List Char :=
  s.flatMap encodeChar

/-- The safe form of a text. -/
def encode (s : String) : String :=
  String.ofList (encodeChars s.toList)

/-- The character with the given code point. Surrogates and numbers above the
    last code point have none. -/
def charOfCode? (n : Nat) : Option Char :=
  if n.isValidChar then some (Char.ofNat n) else none

/-- The escape at the front of a text, as the character it names and the text
    after it. The number may have leading zeros and be of any length. -/
def readEscape? (s : List Char) : Option (Char × List Char) :=
  match dropLead? fence s with
  | none => none
  | some body =>
    let digits := body.takeWhile Char.isDigit
    match dropLead? fence (body.dropWhile Char.isDigit) with
    | none => none
    | some after =>
      -- Two fences side by side enclose nothing.
      if digits.isEmpty then none
      else (charOfCode? (Nat.ofDigitChars 10 digits 0)).map fun c => (c, after)

/-- The text cut in front of its first fence. Without a fence the second part is
    empty. -/
def seekFence : List Char → List Char × List Char
  | [] => ([], [])
  | c :: rest =>
    if fence <+: c :: rest then ([], c :: rest)
    else
      let cut := seekFence rest
      (c :: cut.1, cut.2)

theorem seekFence_append (s : List Char) : (seekFence s).1 ++ (seekFence s).2 = s := by
  induction s with
  | nil => rfl
  | cons c rest ih =>
    rw [seekFence]
    split
    · rfl
    · simp only [List.cons_append, ih]

theorem length_seekFence_le (s : List Char) : (seekFence s).2.length ≤ s.length := by
  conv => rhs; rw [← seekFence_append s, List.length_append]
  omega

/-- An escape takes at least its two fences off the text. -/
theorem length_lt_of_readEscape? {s after : List Char} {c : Char}
    (h : readEscape? s = some (c, after)) : after.length < s.length := by
  unfold readEscape? at h
  split at h
  · cases h
  · next body hbody =>
    dsimp only at h
    split at h
    · cases h
    · next rest hrest =>
      split at h
      · cases h
      · obtain ⟨d, _, hd⟩ := Option.map_eq_some_iff.1 h
        cases hd
        -- The text is a fence, the digits, a fence and the rest.
        have hopen := congrArg List.length (dropLead?_eq_some_iff.1 hbody)
        have hclose := congrArg List.length (dropLead?_eq_some_iff.1 hrest)
        have hdigits := (List.dropWhile_suffix (l := body) Char.isDigit).length_le
        simp only [fence, List.length_append, List.length_cons, List.length_nil] at hopen hclose
        omega

/-- The text with each escape replaced by its character. -/
def unescape (s : List Char) : List Char :=
  match _ : (seekFence s).2 with
  | [] => (seekFence s).1
  | c :: rest =>
    match _ : readEscape? (c :: rest) with
    | some (named, after) => (seekFence s).1 ++ named :: unescape after
    -- No escape here: one underscore is text, and the next may open one.
    | none => (seekFence s).1 ++ c :: unescape rest
termination_by s.length
decreasing_by
  all_goals
    have hle := length_seekFence_le s
    simp_all only
  · exact Nat.lt_of_lt_of_le (length_lt_of_readEscape? ‹_›) hle
  · exact hle

/-- The text that a token half stands for. -/
def decodeChars (s : List Char) : List Char :=
  (unescape s).map fun c => if c = spaceMark then ' ' else c

/-- The text that a token half stands for: its escapes read, and every tilde a
    space, also one that an escape names. -/
def decode (s : String) : String :=
  String.ofList (decodeChars s.toList)

example : encode "#fff" = "__35__fff" := by decide +kernel
example : decode "___35__fff" = "_#fff" := by decide +kernel

end Escape

end AtomicCss
