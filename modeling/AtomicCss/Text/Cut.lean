/-!
# Cutting a Text

Finding a separator or a marker in a text, on its list of characters.

Every separator of the token grammar counts only where it first occurs, so
one cut serves them all: `cutAt` gives the text before the first occurrence and
the text after it. A marker that has to open a text is taken off by `dropLead?`.
The other two functions ask a question and cut nothing.

## Main definitions

* `cutAt`: The text before and after the first occurrence of a character.
* `dropLead?`: The text after one that it has to open with.
* `occursIn`: A text occurs somewhere in another.
* `sameCaseless`: Two texts agree once ASCII letters are in lower case.

## Theorems

* `cutAt_eq_some_iff`: What the two pieces of a cut are.
* `cutAt_eq_none_iff`: There is no cut exactly if the character is absent.
* `dropLead?_eq_some_iff`: What is left after an opening.
* `occursIn_eq_true_iff`: What occurs is an infix.
-/

namespace AtomicCss

namespace Text

/-- The text before the first `sep` and the text after it; `none` if there is no
    `sep`. -/
def cutAt (sep : Char) : List Char → Option (List Char × List Char)
  | [] => none
  | c :: rest =>
    if c = sep then some ([], rest)
    else (cutAt sep rest).map fun cut => (c :: cut.1, cut.2)

theorem cutAt_eq_some_iff {sep : Char} {s before after : List Char} :
    cutAt sep s = some (before, after) ↔ s = before ++ sep :: after ∧ sep ∉ before := by
  induction s generalizing before with
  | nil => simp [cutAt]
  | cons c rest ih =>
    by_cases hc : c = sep
    · subst hc
      cases before with
      | nil => simp [cutAt, eq_comm]
      | cons b bs =>
        -- A cut here leaves nothing before it, and a piece that begins with the
        -- separator is none.
        simp [cutAt]
        grind
    · cases before with
      | nil => simp [cutAt, hc]
      | cons b bs =>
        simp only [cutAt, hc, if_false, Option.map_eq_some_iff, Prod.exists, Prod.mk.injEq,
          List.cons.injEq, List.cons_append, List.mem_cons, not_or]
        constructor
        · rintro ⟨x, y, hcut, ⟨rfl, rfl⟩, rfl⟩
          obtain ⟨hrest, hmem⟩ := ih.1 hcut
          exact ⟨⟨rfl, hrest⟩, Ne.symm hc, hmem⟩
        · rintro ⟨⟨rfl, hrest⟩, _, hmem⟩
          exact ⟨bs, after, ih.2 ⟨hrest, hmem⟩, ⟨rfl, rfl⟩, rfl⟩

theorem cutAt_eq_none_iff {sep : Char} {s : List Char} : cutAt sep s = none ↔ sep ∉ s := by
  induction s with
  | nil => simp [cutAt]
  | cons c rest ih =>
    by_cases hc : c = sep
    · simp [cutAt, hc]
    · simp [cutAt, hc, ih, Ne.symm hc]

/-- What comes after a cut is shorter than the whole: the separator at least is
    gone. -/
theorem length_lt_of_cutAt {sep : Char} {s before after : List Char}
    (h : cutAt sep s = some (before, after)) : after.length < s.length := by
  rw [(cutAt_eq_some_iff.1 h).1, List.length_append, List.length_cons]
  omega

/-- The text after `lead`, if it opens with it. -/
def dropLead? : List Char → List Char → Option (List Char)
  | [], s => some s
  | _ :: _, [] => none
  | p :: lead, c :: s => if p = c then dropLead? lead s else none

theorem dropLead?_eq_some_iff {lead s rest : List Char} :
    dropLead? lead s = some rest ↔ s = lead ++ rest := by
  induction lead generalizing s with
  | nil => simp [dropLead?]
  | cons p lead ih =>
    cases s with
    | nil => simp [dropLead?]
    | cons c s =>
      by_cases hpc : p = c
      · simp [dropLead?, hpc, ih]
      · simp [dropLead?, hpc, Ne.symm hpc]

/-- The text `part` occurs somewhere in the text, in one piece. -/
def occursIn (part : List Char) : List Char → Bool
  | [] => part.isEmpty
  | c :: s => part.isPrefixOf (c :: s) || occursIn part s

theorem occursIn_eq_true_iff (part s : List Char) : occursIn part s = true ↔ part <:+: s := by
  induction s with
  | nil => rw [occursIn, List.isEmpty_iff, List.infix_nil]
  | cons c s ih =>
    rw [occursIn, Bool.or_eq_true, List.isPrefixOf_iff_prefix, ih, List.infix_cons_iff]

/-- The two texts agree once their ASCII letters are in lower case. Other letters
    have to agree as they stand. -/
def sameCaseless (a b : String) : Bool :=
  a.toList.map Char.toLower == b.toList.map Char.toLower

end Text

end AtomicCss
