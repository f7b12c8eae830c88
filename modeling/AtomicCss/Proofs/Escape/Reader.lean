import AtomicCss.Escape

/-!
# Reading One Character at a Time

What the reader of escapes does at the front of a text.

`unescape` is written as a search. It looks for the next fence, copies all that
stands before it, and only then tries to read. That is the right shape for
running it and the wrong one for proving anything about it, because a fact about
one position has to be carried through the search that led there.

The search is not observable, though. At every position the reader either reads
an escape and goes on behind it, or copies one character and goes on behind
that. `unescape_of_readEscape?` and `unescape_cons_of_none` say so, and with
`unescape_nil` they determine the reader completely; nothing after this module
looks at `seekFence` again.

A character that is no underscore is always copied, since no escape opens with
it. An escape that was written out, digits between two fences, is always read,
whatever text follows the second fence: the digits end where it begins.

## Theorems

* `unescape_eq_seek`: The search copies what it skips.
* `unescape_of_readEscape?`: An escape at the front is read.
* `unescape_cons_of_none`: Without one, a character is copied.
* `unescape_cons_of_ne`: Only an underscore can open an escape.
* `unescape_of_not_mem`: Without underscores there is nothing to read.
* `readEscape?_digits`: Digits between fences are an escape.
* `charOfCode?_toNat`: Each character is the one with its code point.
* `unescape_ne_nil`: Something is read from every text but the empty one.
-/

namespace AtomicCss

namespace Escape

open Text

theorem seekFence_of_fence (s : List Char) (h : fence <+: s) : seekFence s = ([], s) := by
  cases s with
  | nil => rfl
  | cons c rest => rw [seekFence, if_pos h]

theorem fence_of_readEscape? (s after : List Char) (c : Char)
    (h : readEscape? s = some (c, after)) : fence <+: s := by
  unfold readEscape? at h
  split at h
  · exact absurd h (by simp only [reduceCtorEq, not_false_eq_true])
  · next body hbody => exact ⟨body, (dropLead?_eq_some_iff.1 hbody).symm⟩

/-- The text behind the search opens with a fence, unless nothing is left. -/
theorem seekFence_seekFence (s : List Char) : seekFence (seekFence s).2 = ([], (seekFence s).2) := by
  induction s with
  | nil => rfl
  | cons c rest ih =>
      by_cases h : fence <+: c :: rest
      · rw [seekFence_of_fence _ h]
        exact seekFence_of_fence _ h
      · rw [seekFence, if_neg h]
        exact ih

theorem unescape_of_seek_nil (s : List Char) (h : (seekFence s).2 = []) :
    unescape s = (seekFence s).1 := by
  rw [unescape]
  split
  · rfl
  · next hcons =>
    rw [h] at hcons
    exact absurd hcons (by simp only [reduceCtorEq, not_false_eq_true])

theorem unescape_of_seek_cons (s rest : List Char) (c : Char) (h : (seekFence s).2 = c :: rest) :
    unescape s = (seekFence s).1 ++ (match readEscape? (c :: rest) with
      | some (named, after) => named :: unescape after
      | none => c :: unescape rest) := by
  rw [unescape]
  split
  · next hnil =>
    rw [h] at hnil
    exact absurd hnil (by simp only [reduceCtorEq, not_false_eq_true])
  · next hcons =>
    rw [h] at hcons
    cases hcons
    split
    · next hread => rw [hread]
    · next hread => rw [hread]

theorem unescape_nil : unescape [] = [] := unescape_of_seek_nil [] rfl

/-- The search copies what it skips and changes nothing else: reading a text is
    reading from its first fence on. -/
theorem unescape_eq_seek (s : List Char) :
    unescape s = (seekFence s).1 ++ unescape (seekFence s).2 := by
  have hagain := seekFence_seekFence s
  cases h : (seekFence s).2 with
  | nil => rw [unescape_of_seek_nil s h, unescape_nil, List.append_nil]
  | cons c rest =>
      rw [h] at hagain
      rw [unescape_of_seek_cons s rest c h, unescape_of_seek_cons (c :: rest) rest c (by rw [hagain]),
        hagain, List.nil_append]

/-- An escape at the front of a text is read, and the reader goes on behind it. -/
theorem unescape_of_readEscape? (s after : List Char) (c : Char)
    (h : readEscape? s = some (c, after)) : unescape s = c :: unescape after := by
  have hseek := seekFence_of_fence s (fence_of_readEscape? s after c h)
  cases s with
  | nil => exact absurd h (by simp only [readEscape?, dropLead?, fence, reduceCtorEq,
      not_false_eq_true])
  | cons d rest =>
      rw [unescape_of_seek_cons (d :: rest) rest d (by rw [hseek]), hseek, h, List.nil_append]

/-- A text that opens with no escape loses one character to the result, and the
    reader goes on behind that character. Whether the search stopped here, at a
    fence that opens nothing, makes no difference. -/
theorem unescape_cons_of_none (c : Char) (rest : List Char) (h : readEscape? (c :: rest) = none) :
    unescape (c :: rest) = c :: unescape rest := by
  by_cases hfence : fence <+: c :: rest
  · have hseek := seekFence_of_fence (c :: rest) hfence
    rw [unescape_of_seek_cons (c :: rest) rest c (by rw [hseek]), hseek, h, List.nil_append]
  · -- The search went on behind the character and copied it on the way.
    have hseek : seekFence (c :: rest) = (c :: (seekFence rest).1, (seekFence rest).2) := by
      rw [seekFence, if_neg hfence]
    rw [unescape_eq_seek (c :: rest), hseek, unescape_eq_seek rest, List.cons_append]

theorem readEscape?_cons_of_ne (c : Char) (rest : List Char) (h : c ≠ '_') :
    readEscape? (c :: rest) = none := by
  cases hread : readEscape? (c :: rest) with
  | none => rfl
  | some found =>
      rcases fence_of_readEscape? _ found.2 found.1 hread with ⟨body, hbody⟩
      exact absurd (List.cons.inj hbody).1.symm h

/-- Only an underscore can open an escape. -/
theorem unescape_cons_of_ne (c : Char) (rest : List Char) (h : c ≠ '_') :
    unescape (c :: rest) = c :: unescape rest :=
  unescape_cons_of_none c rest (readEscape?_cons_of_ne c rest h)

/-- A text without an underscore is read as it stands. -/
theorem unescape_of_not_mem (s : List Char) (h : '_' ∉ s) : unescape s = s := by
  induction s with
  | nil => exact unescape_nil
  | cons c rest ih =>
      rw [List.mem_cons, not_or] at h
      rw [unescape_cons_of_ne c rest (Ne.symm h.1), ih h.2]

/-- Digits between two fences are an escape, if they name a character. What
    follows the second fence does not matter, further digits and fences
    included. -/
theorem readEscape?_digits (digits s : List Char) (hne : digits ≠ [])
    (hdigit : ∀ d ∈ digits, d.isDigit = true) :
    readEscape? (fence ++ digits ++ fence ++ s)
      = (charOfCode? (Nat.ofDigitChars 10 digits 0)).map fun c => (c, s) := by
  have hopen : dropLead? fence (fence ++ digits ++ fence ++ s) = some (digits ++ (fence ++ s)) :=
    dropLead?_eq_some_iff.2 (by simp only [List.append_assoc])
  -- The run of digits stops at the fence, which is no digit.
  have hrun : (digits ++ (fence ++ s)).takeWhile Char.isDigit = digits := by
    rw [List.takeWhile_append_of_pos hdigit, show (fence ++ s).takeWhile Char.isDigit = [] from rfl,
      List.append_nil]
  have hrest : (digits ++ (fence ++ s)).dropWhile Char.isDigit = fence ++ s := by
    rw [List.dropWhile_append_of_pos hdigit]
    rfl
  have hclose : dropLead? fence (fence ++ s) = some s := dropLead?_eq_some_iff.2 rfl
  have hsome : digits.isEmpty = false := by rw [List.isEmpty_eq_false_iff]; exact hne
  unfold readEscape?
  simp only [hopen, hrun, hrest, hclose, hsome, Bool.false_eq_true, if_false]

theorem charOfCode?_toNat (c : Char) : charOfCode? c.toNat = some c := by
  unfold charOfCode?
  rw [if_pos (show c.toNat.isValidChar from c.valid), Char.ofNat_toNat]

/-- Something is read from every text but the empty one. -/
theorem unescape_ne_nil (s : List Char) (h : s ≠ []) : unescape s ≠ [] := by
  cases s with
  | nil => exact absurd rfl h
  | cons c rest =>
      cases hread : readEscape? (c :: rest) with
      | none =>
          rw [unescape_cons_of_none c rest hread]
          exact List.cons_ne_nil _ _
      | some found =>
          rw [unescape_of_readEscape? _ found.2 found.1 hread]
          exact List.cons_ne_nil _ _

end Escape

end AtomicCss
