import AtomicCss.Directive
import AtomicCss.Proofs.Escape.RoundTrip
import AtomicCss.Proofs.Text.Words

/-!
# The Alphabet of Class Names

What a class name is made of.

Encoding leaves ASCII letters and digits and writes everything else with
underscores and digits, and a class name adds one more underscore. So a class
name is written in letters, digits and underscores, whatever the declaration is
about. No blank can occur in it, which is what lets names be joined by spaces and
split again; and no `@`, no dot and no colon, which is why none of the prefixes
of a token can be read in it.

## Theorems

* `toList_className`: The characters of a class name.
* `safe_or_underscore_of_mem_className`: The alphabet.
* `isWord_className`: A class name is one word.
* `not_mem_className`: No prefix of a token can be read in a class name.
-/

namespace AtomicCss

namespace Directive

open Text

theorem toList_className (d : Directive) :
    d.className.toList
      = Escape.encodeChars d.property.toList ++ '_' :: Escape.encodeChars d.value.toList := by
  rw [className, String.toList_append, String.toList_append, Escape.toList_encode,
    Escape.toList_encode, List.append_assoc]
  rfl

/-- A class name is made of letters, digits and underscores. -/
theorem safe_or_underscore_of_mem_className (d : Directive) (c : Char) (h : c ∈ d.className.toList) :
    c.isAlphanum = true ∨ c = '_' := by
  rw [toList_className, List.mem_append, List.mem_cons] at h
  rcases h with h | h | h
  · exact Escape.safe_or_underscore_of_mem_encodeChars _ c h
  · exact Or.inr h
  · exact Escape.safe_or_underscore_of_mem_encodeChars _ c h

/-- A class name is one word. -/
theorem isWord_className (d : Directive) : IsWord d.className := by
  constructor
  · rw [toList_className]
    exact fun hnil => List.cons_ne_nil _ _ (List.append_eq_nil_iff.1 hnil).2
  · intro c hc
    rcases safe_or_underscore_of_mem_className d c hc with hsafe | hunderscore
    · exact isBlank_of_isAlphanum c hsafe
    · rw [hunderscore]
      decide

/-- No character that is neither safe nor an underscore occurs in a class name. -/
theorem not_mem_className (d : Directive) (c : Char) (hsafe : c.isAlphanum = false) (hc : c ≠ '_') :
    c ∉ d.className.toList := by
  intro hmem
  rcases safe_or_underscore_of_mem_className d c hmem with h | h
  · rw [hsafe] at h
    exact absurd h (by decide)
  · exact hc h

end Directive

end AtomicCss
