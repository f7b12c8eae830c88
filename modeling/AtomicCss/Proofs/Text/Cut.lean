import AtomicCss.Text.Cut
import Mathlib.Data.List.Basic

/-!
# Cuts by Position

A cut as two pieces of the text, named by the position of the separator.

`cutAt` walks a text and stops at the first separator. What it finds has a closed
form: everything in front of the first position of the separator, and everything
behind it. Statements about the token grammar speak of positions, and these
lemmas are where the two ways of speaking meet.

## Theorems

* `eq_take_append_drop`: A text around the first position of a character.
* `not_mem_take_idxOf`: The character does not stand in front of that position.
* `cutAt_of_mem`: A cut is the text around the first position.
* `cutAt_of_not_mem`: There is no cut at a character that is absent.
* `suffix_of_cutAt`: What comes after a cut is an end of the text.
* `append_cons_inj`: Two texts are told apart on both sides of a separator.
-/

namespace AtomicCss

namespace Text

/-- A text around the first position of a character that occurs in it. -/
theorem eq_take_append_drop (sep : Char) (s : List Char) (h : sep ∈ s) :
    s = s.take (s.idxOf sep) ++ sep :: s.drop (s.idxOf sep + 1) := by
  have hlt := List.idxOf_lt_length_of_mem h
  conv => lhs; rw [← List.take_append_drop (s.idxOf sep) s]
  rw [List.drop_eq_getElem_cons hlt, List.getElem_idxOf hlt]

theorem not_mem_take_idxOf (sep : Char) (s : List Char) : sep ∉ s.take (s.idxOf sep) := by
  intro hmem
  rw [List.mem_take_iff_idxOf_lt (List.mem_of_mem_take hmem)] at hmem
  omega

/-- A cut is the text around the first position of the separator. -/
theorem cutAt_of_mem (sep : Char) (s : List Char) (h : sep ∈ s) :
    cutAt sep s = some (s.take (s.idxOf sep), s.drop (s.idxOf sep + 1)) :=
  cutAt_eq_some_iff.2 ⟨eq_take_append_drop sep s h, not_mem_take_idxOf sep s⟩

theorem cutAt_of_not_mem (sep : Char) (s : List Char) (h : sep ∉ s) : cutAt sep s = none :=
  cutAt_eq_none_iff.2 h

/-- What comes after a cut is an end of the text. -/
theorem suffix_of_cutAt (sep : Char) (s before after : List Char)
    (h : cutAt sep s = some (before, after)) : after <:+ s := by
  rw [(cutAt_eq_some_iff.1 h).1]
  exact (List.suffix_cons sep after).trans (List.suffix_append before (sep :: after))

/-- Two texts that go on behind their first separator are told apart on both sides
    of it. -/
theorem append_cons_inj (sep : Char) (a b s t : List Char) (ha : sep ∉ a) (hb : sep ∉ b)
    (h : a ++ sep :: s = b ++ sep :: t) : a = b ∧ s = t := by
  have hcut : cutAt sep (a ++ sep :: s) = some (a, s) := cutAt_eq_some_iff.2 ⟨rfl, ha⟩
  rw [h, cutAt_eq_some_iff.2 ⟨rfl, hb⟩, Option.some.injEq, Prod.mk.injEq] at hcut
  exact ⟨hcut.1.symm, hcut.2.symm⟩

end Text

end AtomicCss
