import AtomicCss.Proofs.Escape.Reader
import Mathlib.Data.List.TakeWhile

/-!
# The Grammar of Escaped Text

What reading a text means, said without a search and without a reader.

A text is read from the left. Where an escape stands, which is a numeral between
two fences that is the code point of some character, that character is read and
the whole escape is gone; where none stands, one character is read as it is.
`Reads` is this sentence and nothing else. It does not say how an escape is
recognised, how far one has to look for its end, or what becomes of a fence that
opens nothing, and it does not say either that there is only one way to read.

All of that is decided by the text. A numeral is made of digits and a fence is
not, so the digits behind a fence are as many as stand there, and if a second
fence follows them the escape can be no longer and no shorter. Hence a text opens
with at most one escape, `readEscape?` finds it (`readEscape?_eq_some_iff`), and
each text can be read in exactly one way, which is the one of `unescape`
(`reads_iff`).

## Main definitions

* `IsNumeral`: Digits that denote a number, leading zeros allowed.
* `Opens`: An escape stands at the front of a text.
* `Reads`: Reading from the left.

## Theorems

* `charOfCode?_eq_some_iff`: A number has a character if it is its code point.
* `readEscape?_eq_some_iff`: The escape that is found is the one that stands there.
* `reads_unescape`: The reader reads.
* `reads_iff`: And there is no other way to read.
-/

namespace AtomicCss

namespace Escape

open Text

/-- Decimal digits that denote a number. There is at least one, and zeros may lead. -/
structure IsNumeral (digits : List Char) (n : Nat) : Prop where
  ne_nil : digits ≠ []
  isDigit : ∀ d ∈ digits, d.isDigit = true
  value : Nat.ofDigitChars 10 digits 0 = n

/-- The text opens with the escape of a character, and the rest comes after it. -/
def Opens (s : List Char) (c : Char) (after : List Char) : Prop :=
  ∃ digits, IsNumeral digits c.toNat ∧ s = fence ++ digits ++ fence ++ after

/-- Reading a text from the left: an escape where one stands, and else one character
    as it is. -/
inductive Reads : List Char → List Char → Prop
  | nil : Reads [] []
  | escape {s after text : List Char} {c : Char} (h : Opens s c after) (rest : Reads after text) :
      Reads s (c :: text)
  | copy {s text : List Char} {c : Char} (h : ∀ d after, ¬ Opens (c :: s) d after)
      (rest : Reads s text) : Reads (c :: s) (c :: text)

theorem charOfCode?_eq_some_iff (n : Nat) (c : Char) : charOfCode? n = some c ↔ c.toNat = n := by
  constructor
  · intro h
    unfold charOfCode? at h
    by_cases hvalid : n.isValidChar
    · rw [if_pos hvalid, Option.some.injEq] at h
      rw [← h, Char.ofNat, dif_pos hvalid]
      rfl
    · rw [if_neg hvalid] at h
      exact absurd h (by simp only [reduceCtorEq, not_false_eq_true])
  · intro h
    rw [← h, charOfCode?_toNat]

/-- What was found at the front of a text are the digits there, between two fences. -/
theorem opens_of_readEscape? (s after : List Char) (c : Char)
    (h : readEscape? s = some (c, after)) : Opens s c after := by
  unfold readEscape? at h
  cases hopen : dropLead? fence s with
  | none =>
      rw [hopen] at h
      exact absurd h (by simp only [reduceCtorEq, not_false_eq_true])
  | some body =>
      simp only [hopen] at h
      cases hclose : dropLead? fence (body.dropWhile Char.isDigit) with
      | none =>
          rw [hclose] at h
          exact absurd h (by simp only [reduceCtorEq, not_false_eq_true])
      | some rest =>
          simp only [hclose, Option.ite_none_left_eq_some, List.isEmpty_iff,
            Option.map_eq_some_iff, Prod.mk.injEq] at h
          rcases h with ⟨hne, named, hnamed, rfl, rfl⟩
          -- The digits are the run behind the first fence, and the text is put together again.
          refine ⟨body.takeWhile Char.isDigit, ⟨hne, ?_, ?_⟩, ?_⟩
          · exact fun d hd => List.mem_takeWhile_imp hd
          · exact ((charOfCode?_eq_some_iff _ _).1 hnamed).symm
          · have hbody := List.takeWhile_append_dropWhile (p := Char.isDigit) (l := body)
            rw [dropLead?_eq_some_iff.1 hclose] at hbody
            rw [dropLead?_eq_some_iff.1 hopen, ← hbody]
            simp only [List.append_assoc, hbody]

/-- The escape that is found is the one that stands there. -/
theorem readEscape?_eq_some_iff (s after : List Char) (c : Char) :
    readEscape? s = some (c, after) ↔ Opens s c after := by
  constructor
  · exact opens_of_readEscape? s after c
  · rintro ⟨digits, hdigits, rfl⟩
    rw [readEscape?_digits digits after hdigits.ne_nil hdigits.isDigit, hdigits.value,
      charOfCode?_toNat, Option.map_some]

theorem readEscape?_eq_none_iff (s : List Char) :
    readEscape? s = none ↔ ∀ c after, ¬ Opens s c after := by
  rw [Option.eq_none_iff_forall_ne_some]
  constructor
  · exact fun h c after hopens => h (c, after) ((readEscape?_eq_some_iff s after c).2 hopens)
  · exact fun h found hfound => h found.1 found.2 ((readEscape?_eq_some_iff s _ _).1 hfound)

/-- The reader reads. The induction is on the length of what is left, since an
    escape takes more than one character off. -/
theorem reads_unescape (s : List Char) : Reads s (unescape s) := by
  cases s with
  | nil =>
      rw [unescape_nil]
      exact .nil
  | cons c rest =>
      cases hread : readEscape? (c :: rest) with
      | none =>
          rw [unescape_cons_of_none c rest hread]
          exact .copy ((readEscape?_eq_none_iff _).1 hread) (reads_unescape rest)
      | some found =>
          have hshorter := length_lt_of_readEscape? hread
          rw [unescape_of_readEscape? _ found.2 found.1 hread]
          exact .escape ((readEscape?_eq_some_iff _ _ _).1 hread) (reads_unescape found.2)
termination_by s.length
decreasing_by
  · exact Nat.lt_succ_self rest.length
  · exact hshorter

/-- Each text can be read, and in one way only. -/
theorem reads_iff (s text : List Char) : Reads s text ↔ text = unescape s := by
  constructor
  · intro h
    induction h with
    | nil => exact unescape_nil.symm
    | escape hopens _ ih =>
        rw [unescape_of_readEscape? _ _ _ ((readEscape?_eq_some_iff _ _ _).2 hopens), ih]
    | copy hnone _ ih =>
        rw [unescape_cons_of_none _ _ ((readEscape?_eq_none_iff _).2 hnone), ih]
  · intro h
    rw [h]
    exact reads_unescape s

end Escape

end AtomicCss
