import AtomicCss.Proofs.Token.ClassName
import Mathlib.Data.List.TakeWhile

/-!
# Reading a Name Again and Again

What a class name becomes when it is read as a token, step by step.

A name that a token was given is put where tokens are, and so it is read again, and
what comes out may be read once more. What happens is decided by the characters of
the property that are safe from the front on. If they are all of it, the name is
read as the declaration it was made for, and the story ends. If there are some and
then one that is not safe, they are all that is left of the property; the name
becomes a different one, and with that the story ends as well, since the property
is safe now. If there are none, the reader finds no property at all.

So one more reading is always enough. It need not use the scheme match of the
first, since a class name has no dot in it.

## Main definitions

* `safeLead`: The safe characters at the front of a property.

## Theorems

* `exists_append_safeLead`: What stands behind them if they are not all.
* `read_className_again`: A name that was read from a name reads as the same.
* `read_className_cut`: The name of a directive whose property is not safe.
* `read_className_cases`: What each name is read as.
-/

namespace AtomicCss

namespace Token

/-- The longest part at the front of the property that is safe as it stands. -/
def safeLead (d : Directive) : List Char :=
  d.property.toList.takeWhile Char.isAlphanum

theorem safe_of_mem_safeLead (d : Directive) : ∀ c ∈ safeLead d, c.isAlphanum = true :=
  fun _ hc => List.mem_takeWhile_imp hc

/-- A property that is not safe has a first character that is not, right behind the
    safe ones. -/
theorem exists_append_safeLead (d : Directive)
    (h : ¬ ∀ c ∈ d.property.toList, c.isAlphanum = true) :
    ∃ c rest, d.property.toList = safeLead d ++ c :: rest ∧ ¬ c.isAlphanum = true := by
  have hsplit := List.takeWhile_append_dropWhile (p := Char.isAlphanum) (l := d.property.toList)
  cases hrest : d.property.toList.dropWhile Char.isAlphanum with
  | nil => exact absurd (List.dropWhile_eq_nil_iff.1 hrest) h
  | cons c rest =>
      refine ⟨c, rest, ?_, ?_⟩
      · rw [safeLead, ← hrest, hsplit]
      · have hne : d.property.toList.dropWhile Char.isAlphanum ≠ [] := by
          rw [hrest]
          exact List.cons_ne_nil c rest
        have hc := List.head_dropWhile_not Char.isAlphanum hne
        simp only [hrest, List.head_cons] at hc
        rw [hc]
        exact Bool.false_ne_true

/-- A name holds a declaration and no scope for it. -/
theorem unscoped_of_read_className (m : SchemeMatch) (d d' : Directive)
    (h : read m d.className = .ok d') : { d' with media := none, selector := "" } = d' := by
  rw [read_className] at h
  cases hsplit : splitDeclaration d.className.toList with
  | error reason =>
      rw [hsplit, Except.map] at h
      exact absurd h (by simp only [reduceCtorEq, not_false_eq_true])
  | ok halves =>
      rw [hsplit, Except.map, Except.ok.injEq] at h
      rw [← h]

/-- What was read from a name is read from its own name as well. -/
theorem read_className_again (m m' : SchemeMatch) (d d' : Directive)
    (h : read m d.className = .ok d') : read m' d'.className = .ok d' := by
  have hread := read_className_of_safe m' d' (property_ne_nil_of_read m _ d' h)
    (value_ne_nil_of_read m _ d' h) (tilde_not_mem_of_read m _ d' h)
    (safe_of_read_className m d d' h)
  rw [unscoped_of_read_className m d d' h] at hread
  exact hread

/-- The name of a directive whose property is not safe is read as another one, or
    as none if no character in front is safe. -/
theorem read_className_cut (m : SchemeMatch) (d : Directive)
    (h : ¬ ∀ c ∈ d.property.toList, c.isAlphanum = true) :
    (safeLead d = [] → read m d.className = .error .emptyProperty) ∧
      (safeLead d ≠ [] → ∃ d', read m d.className = .ok d' ∧
        d'.property = String.ofList (safeLead d) ∧ d'.className ≠ d.className) := by
  rcases exists_append_safeLead d h with ⟨c, rest, hproperty, hc⟩
  rcases read_className_of_escaped m d (safeLead d) rest c hproperty (safe_of_mem_safeLead d) hc
    with ⟨digit, more, _, _, hread⟩
  constructor
  · intro hnone
    rw [hread, if_pos hnone]
  · intro hsome
    rw [if_neg hsome] at hread
    refine ⟨_, hread, rfl, ?_⟩
    intro hsame
    refine renamed_className_ne m d h ?_
    rw [renamed, hread]
    exact congrArg some hsame

/-- What the name that a token was given is read as. If the property is safe it is
    the declaration of the token. If not, the property ends where it is no longer
    safe, and the name changes for the last time, or there is no property. -/
theorem read_className_cases (m m' : SchemeMatch) (token : String) (d : Directive)
    (h : read m token = .ok d) :
    ((∀ c ∈ d.property.toList, c.isAlphanum = true) →
      ∃ d', read m' d.className = .ok d' ∧ d' = { d with media := none, selector := "" } ∧
        d'.className = d.className) ∧
    ((¬ ∀ c ∈ d.property.toList, c.isAlphanum = true) →
      (safeLead d = [] → read m' d.className = .error .emptyProperty) ∧
      (safeLead d ≠ [] → ∃ d', read m' d.className = .ok d' ∧
        d'.property = String.ofList (safeLead d) ∧ d'.className ≠ d.className ∧
        ∀ m'', read m'' d'.className = .ok d')) := by
  constructor
  · intro hsafe
    exact ⟨_, read_className_of_safe m' d (property_ne_nil_of_read m token d h)
      (value_ne_nil_of_read m token d h) (tilde_not_mem_of_read m token d h) hsafe, rfl, rfl⟩
  · intro hescaped
    rcases read_className_cut m' d hescaped with ⟨hnone, hsome⟩
    refine ⟨hnone, fun hlead => ?_⟩
    rcases hsome hlead with ⟨d', hread, hproperty, hname⟩
    exact ⟨d', hread, hproperty, hname, fun m'' => read_className_again m' m'' d d' hread⟩

/-- A safe property, one with a hyphen in it, and one with a hyphen in front. -/
theorem read_className_cases_hyphens :
    (read .anywhere "hover:color_red" = .ok ⟨"color", "red", none, ":hover"⟩ ∧
      ∃ d', read .leading "color_red" = .ok d' ∧ d' = ⟨"color", "red", none, ""⟩ ∧
        d'.className = "color_red") ∧
    (read .anywhere "pc@border-top_1px" = .ok ⟨"border-top", "1px", some (.breakpoint .pc), ""⟩ ∧
      ∃ d', read .leading "border__45__top_1px" = .ok d' ∧ d'.property = "border" ∧
        d'.className ≠ "border__45__top_1px" ∧ ∀ m'', read m'' d'.className = .ok d') ∧
    (read .leading "--gap_1px" = .ok ⟨"--gap", "1px", none, ""⟩ ∧
      read .anywhere "__45____45__gap_1px" = .error .emptyProperty) := by
  have hsafe : read .anywhere "hover:color_red" = .ok ⟨"color", "red", none, ":hover"⟩ := by
    decide +kernel
  have hinside : read .anywhere "pc@border-top_1px"
      = .ok ⟨"border-top", "1px", some (.breakpoint .pc), ""⟩ := by decide +kernel
  have hfront : read .leading "--gap_1px" = .ok ⟨"--gap", "1px", none, ""⟩ := by decide +kernel
  refine ⟨⟨hsafe, ?_⟩, ⟨hinside, ?_⟩, ⟨hfront, ?_⟩⟩
  · exact (read_className_cases .anywhere .leading _ _ hsafe).1 (List.all_eq_true.1 (by decide))
  · refine ((read_className_cases .anywhere .leading _ _ hinside).2 (fun h => ?_)).2 (by decide)
    exact absurd (h '-' (by decide)) (by decide)
  · refine ((read_className_cases .leading .anywhere _ _ hfront).2 (fun h => ?_)).1 (by decide)
    exact absurd (h '-' (by decide)) (by decide)

end Token

end AtomicCss
