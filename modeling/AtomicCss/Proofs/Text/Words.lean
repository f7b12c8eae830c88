import AtomicCss.Text.Blank

/-!
# Words of a Joined Text

Splitting a text into words undoes joining words.

A class attribute is read by splitting it at its blanks and written by joining
names with spaces, and the two are used on each other's results: an attribute
that was written here is read here again. What makes the pair work is that a name
is a word, which is to say not empty and without a blank in it. Splitting then
finds the joining spaces and nothing else.

A blank of any kind separates, and what stands on its two sides is split on its
own (`wordsOf_append_blank`). Everything else follows from that.

## Main definitions

* `IsWord`: A text that is one word.

## Theorems

* `isBlank_of_isAlphanum`: No safe character is a blank.
* `wordsOf_append_blank`: A blank keeps the words on its sides apart.
* `words_append_blanks`: And so does a run of blanks.
* `mem_of_mem_words`: A word is made of characters of its text.
* `words_intercalate`: Splitting finds the words that were joined.
* `intercalate_injective`: Words can be told from the text they are joined to.
-/

namespace AtomicCss

namespace Text

/-- A text that is one word: not empty, and without a blank. -/
def IsWord (s : String) : Prop :=
  s.toList ≠ [] ∧ ∀ c ∈ s.toList, isBlank c = false

/-- No safe character is a blank. -/
theorem isBlank_of_isAlphanum (c : Char) (h : c.isAlphanum = true) : isBlank c = false := by
  have hrange : (65 ≤ c.toNat ∧ c.toNat ≤ 90) ∨ (97 ≤ c.toNat ∧ c.toNat ≤ 122) ∨
      (48 ≤ c.toNat ∧ c.toNat ≤ 57) := by
    change (decide (65 ≤ c.val ∧ c.val ≤ 90) || (decide (97 ≤ c.val) && decide (c.val ≤ 122)) ||
      (decide (48 ≤ c.val) && decide (c.val ≤ 57))) = true at h
    simp only [Bool.or_eq_true, Bool.and_eq_true, decide_eq_true_eq, UInt32.le_iff_toNat_le,
      or_assoc] at h
    exact h
  rw [isBlank, List.any_eq_false]
  intro range hmem
  -- The three runs of safe characters lie in the gaps of the table.
  simp only [blankRanges, List.mem_cons, List.not_mem_nil, or_false] at hmem
  rcases hmem with rfl | rfl | rfl | rfl | rfl | rfl | rfl | rfl | rfl | rfl <;>
    simp only [Bool.and_eq_true, decide_eq_true_eq] <;> omega

/-- A blank keeps the words on its two sides apart. -/
theorem wordsOf_append_blank (a b : List Char) (c : Char) (h : isBlank c = true) :
    wordsOf (a ++ c :: b) = wordsOf a ++ wordsOf b := by
  rw [wordsOf, List.splitOnP_append_cons a b h, List.filter_append]
  rfl

/-- Blanks in front do not matter, however many there are. -/
theorem wordsOf_blanks_append (w b : List Char) (h : ∀ c ∈ w, isBlank c = true) :
    wordsOf (w ++ b) = wordsOf b := by
  induction w with
  | nil => rfl
  | cons c rest ih =>
      have hrest := ih (fun other hmem => h other (List.mem_cons_of_mem c hmem))
      have hfirst := wordsOf_append_blank [] (rest ++ b) c (h c List.mem_cons_self)
      rw [List.nil_append] at hfirst
      rw [List.cons_append, hfirst, hrest]
      rfl

/-- A run of blanks keeps the words on its two sides apart. -/
theorem words_append_blanks (a w b : String) (hw : w ≠ "") (h : ∀ c ∈ w.toList, isBlank c = true) :
    words (a ++ w ++ b) = words a ++ words b := by
  have hchars : wordsOf (a.toList ++ w.toList ++ b.toList) =
      wordsOf a.toList ++ wordsOf b.toList := by
    cases hlist : w.toList with
    | nil => exact absurd (String.toList_injective hlist) hw
    | cons c rest =>
        rw [hlist] at h
        rw [List.append_assoc, List.cons_append, wordsOf_append_blank _ _ c (h c List.mem_cons_self),
          wordsOf_blanks_append rest _ (fun other hmem => h other (List.mem_cons_of_mem c hmem))]
  rw [words, String.toList_append, String.toList_append, hchars, List.map_append]
  rfl

/-- The pieces of a split text are made of characters of the text. -/
theorem mem_of_mem_splitOnP (p : Char → Bool) (s piece : List Char) (c : Char)
    (h : piece ∈ s.splitOnP p) (hc : c ∈ piece) : c ∈ s := by
  induction s generalizing piece with
  | nil =>
      rw [List.splitOnP_nil, List.mem_singleton] at h
      rw [h] at hc
      exact absurd hc List.not_mem_nil
  | cons x rest ih =>
      rw [List.splitOnP_cons_eq_if_modifyHead] at h
      by_cases hx : p x = true
      · rw [if_pos hx, List.mem_cons] at h
        rcases h with rfl | hmem
        · exact absurd hc List.not_mem_nil
        · exact List.mem_cons_of_mem x (ih piece hmem hc)
      · -- The character joins the first piece of the rest.
        rw [if_neg hx] at h
        cases hsplit : rest.splitOnP p with
        | nil => exact absurd hsplit (List.splitOnP_ne_nil p rest)
        | cons first more =>
            rw [hsplit, List.modifyHead_cons, List.mem_cons] at h
            rw [hsplit] at ih
            rcases h with rfl | hmem
            · rcases List.mem_cons.1 hc with rfl | hfirst
              · exact List.mem_cons_self
              · exact List.mem_cons_of_mem x (ih first List.mem_cons_self hfirst)
            · exact List.mem_cons_of_mem x (ih piece (List.mem_cons_of_mem first hmem) hc)

/-- A word is made of characters of its text. -/
theorem mem_of_mem_words (s word : String) (c : Char) (h : word ∈ words s)
    (hc : c ∈ word.toList) : c ∈ s.toList := by
  rcases List.mem_map.1 h with ⟨piece, hpiece, rfl⟩
  rw [String.toList_ofList] at hc
  exact mem_of_mem_splitOnP isBlank s.toList piece c (List.mem_filter.1 hpiece).1 hc

theorem wordsOf_of_isWord (s : String) (h : IsWord s) : wordsOf s.toList = [s.toList] := by
  have hsome : (!s.toList.isEmpty) = true := by
    rw [Bool.not_eq_true', List.isEmpty_eq_false_iff]
    exact h.1
  rw [wordsOf, List.splitOnP_eq_singleton h.2, List.filter_cons, if_pos hsome, List.filter_nil]

theorem wordsOf_intercalate (names : List String) (h : ∀ name ∈ names, IsWord name) :
    wordsOf ([' '].intercalate (names.map String.toList)) = names.map String.toList := by
  induction names with
  | nil => rfl
  | cons name rest ih =>
      have hname := h name List.mem_cons_self
      have hrest := ih (fun other hmem => h other (List.mem_cons_of_mem name hmem))
      cases rest with
      | nil =>
          rw [List.map_cons, List.map_nil, List.intercalate_singleton]
          exact wordsOf_of_isWord name hname
      | cons next more =>
          rw [List.map_cons, List.map_cons, List.intercalate_cons_cons, ← List.map_cons,
            List.append_assoc, List.singleton_append, wordsOf_append_blank _ _ ' ' (by decide),
            wordsOf_of_isWord name hname, hrest, List.singleton_append]

/-- Splitting finds the words that were joined. -/
theorem words_intercalate (names : List String) (h : ∀ name ∈ names, IsWord name) :
    words (String.intercalate " " names) = names := by
  have hspace : (" " : String).toList = [' '] := rfl
  rw [words, String.toList_intercalate, hspace, wordsOf_intercalate names h, List.map_map]
  conv => rhs; rw [← List.map_id names]
  exact List.map_congr_left (fun name _ => String.ofList_toList)

/-- Words can be told from the text they are joined to. -/
theorem intercalate_injective (names others : List String) (h : ∀ name ∈ names, IsWord name)
    (h' : ∀ name ∈ others, IsWord name)
    (heq : String.intercalate " " names = String.intercalate " " others) : names = others := by
  rw [← words_intercalate names h, heq, words_intercalate others h']

end Text

end AtomicCss
