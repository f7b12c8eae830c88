import AtomicCss.Proofs.Directive.ClassName

/-!
# Unique Class Names

No two declarations share a class name.

A class name is two encodings with an underscore between them, and underscores
are also what escapes are fenced with. In `a___45__b` three of them stand in a
row, and it is not plain to see which one separates the halves. If more than one
could, two declarations would have one name, and an element that asks for the
first would be given the rule of the second.

Only the first of the three can. Two underscores and a digit open an escape. The
separator has an encoding behind it, and no encoding begins with a single
underscore and a digit: where it begins with an underscore, it begins with a
whole fence. So the two characters behind an underscore tell what it is, and a
class name is cut from the left without ever looking further ahead.

That is the induction. It walks along both properties at once, one character of
each at a step. Two characters whose encodings open one text are the same
character (`encodeChar_append_inj`), so the walk goes on behind them; and a
property that ends where the other one goes on would put a separator where an
escape or a safe character is (`encodeChars_append_ne_separator`).

## Theorems

* `encodeChar_append_inj`: An encoded character is told from the text it opens.
* `encodeChars_injective`: An encoded text is told from its encoding.
* `encodeChars_append_ne_separator`: No character is taken for the separator.
* `encodeChars_separator_inj`: Both halves are told from the joined text.
* `className_eq_iff`: Both halves of a declaration are told from its class name.
-/

namespace AtomicCss

namespace Escape

theorem encodeChar_append_inj (c d : Char) (s t : List Char)
    (h : encodeChar c ++ s = encodeChar d ++ t) : c = d ∧ s = t := by
  -- Reading takes one encoded character off the front, whichever it is.
  have hread := congrArg unescape h
  rw [unescape_encodeChar_append, unescape_encodeChar_append] at hread
  have hcd : c = d := (List.cons.inj hread).1
  rw [hcd] at h
  exact ⟨hcd, List.append_cancel_left h⟩

theorem encodeChars_injective (s t : List Char) (h : encodeChars s = encodeChars t) : s = t := by
  have hread : ∀ x, unescape (encodeChars x) = x := by
    intro x
    rw [← List.append_nil (encodeChars x), unescape_encodeChars_append, unescape_nil,
      List.append_nil]
  rw [← hread s, h, hread t]

/-- The encoding of a text that is not empty cannot be read as a separator and an
    encoding behind it. -/
theorem encodeChars_append_ne_separator (c : Char) (rest s value : List Char) :
    encodeChars (c :: rest) ++ s ≠ '_' :: encodeChars value := by
  intro h
  rw [encodeChars_cons, List.append_assoc] at h
  by_cases hc : c.isAlphanum = true
  · rw [encodeChar_of_safe c hc, List.singleton_append] at h
    exact ne_underscore_of_safe c hc (List.cons.inj h).1
  · rcases encodeChar_eq_cons_of_escaped c hc with ⟨d, more, hd, hescape⟩
    -- The escape's second underscore would begin the encoding behind the
    -- separator, and its first digit would come next.
    rw [hescape] at h
    exact encodeChars_ne_underscore_digit value d _ hd (List.cons.inj h).2.symm

/-- Both halves are told from the joined text. The induction is on the first
    property, with the second one free: it loses the same characters. -/
theorem encodeChars_separator_inj (property other value value' : List Char)
    (h : encodeChars property ++ '_' :: encodeChars value
      = encodeChars other ++ '_' :: encodeChars value') :
    property = other ∧ value = value' := by
  induction property generalizing other with
  | nil =>
      cases other with
      | nil => exact ⟨rfl, encodeChars_injective _ _ (List.cons.inj h).2⟩
      | cons d rest => exact absurd h.symm (encodeChars_append_ne_separator d rest _ value)
  | cons c rest ih =>
      cases other with
      | nil => exact absurd h (encodeChars_append_ne_separator c rest _ value')
      | cons d rest' =>
          rw [encodeChars_cons, encodeChars_cons, List.append_assoc, List.append_assoc] at h
          rcases encodeChar_append_inj c d _ _ h with ⟨hcd, hrest⟩
          rcases ih rest' hrest with ⟨hproperty, hvalue⟩
          exact ⟨by rw [hcd, hproperty], hvalue⟩

end Escape

namespace Directive

/-- Two directives have one class name exactly if they have one declaration. The
    property and the value may be any texts. -/
theorem className_eq_iff (d d' : Directive) :
    d.className = d'.className ↔ d.property = d'.property ∧ d.value = d'.value := by
  constructor
  · intro h
    have hchars := congrArg String.toList h
    rw [toList_className, toList_className] at hchars
    rcases Escape.encodeChars_separator_inj _ _ _ _ hchars with ⟨hproperty, hvalue⟩
    exact ⟨String.toList_injective hproperty, String.toList_injective hvalue⟩
  · intro h
    rw [className, className, h.1, h.2]

-- Of the three underscores in a row, the first one separates.
example : className { property := "a", value := "-b", media := none, selector := "" } = "a___45__b" ∧
    className { property := "a_", value := "45__b", media := none, selector := "" } ≠ "a___45__b" := by
  decide +kernel

end Directive

end AtomicCss
