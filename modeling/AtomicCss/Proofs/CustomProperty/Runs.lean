import AtomicCss.CustomProperty
import AtomicCss.Proofs.Text.Words
import Mathlib.Data.List.SplitBy
import Mathlib.Data.List.Infix

/-!
# Wrapping Run by Run

A value with its references wrapped, in closed form.

`expandChars` looks at every position of a value. Where two dashes stand it takes
as many characters as it can and gives them back one at a time, and whether it may
stop is asked of the character behind, which need not be one of those taken. None
of this shows in the result. A value falls into runs of name characters and the
separators between them. Separators are copied. Of a run only two positions
matter, that of its first two dashes and that of its last word character: if the
second lies behind the first, what stands from the one to the other is wrapped,
and if not, the run is copied.

Two facts make it so. Behind a run there is a separator or the end of the value,
and neither goes on with a word, so giving back stops at the last word character
of the run and nowhere else (`referenceName_append`). And what stands behind that
character has no word character left, so it opens no reference
(`expandChars_append_of_wordless`). This is why a run is wrapped once at most.

The induction is on the length of the run, not on its characters, because a
reference is skipped as a whole. A character in front of the first two dashes moves
both positions by one and their order stays (`wrapRun_cons`).

## Main definitions

* `pieces`: The runs of a value and the separators between them.
* `IsCut`: What makes such pieces the right ones.
* `firstDashes?`, `lastWord?`: The two positions of a run.
* `wrapRun`: A run with its reference wrapped.
* `rewritePiece`: What becomes of one piece.
* `EndsRun`: A text at whose front a run ends.

## Theorems

* `isCut_pieces`: The pieces are the maximal stretches of either kind.
* `firstDashes?_eq_some_iff`, `lastWord?_eq_some_iff`: The positions by index.
* `referenceName_append`: A name ends at the last word character of its run.
* `expandChars_append_run`: The scan of a run, whatever follows it.
* `expandChars_of_isCut`: The scan of a value is what becomes of each piece.
* `expand_eq_pieces`: A value with its references wrapped, piece by piece.
-/

namespace AtomicCss

namespace CustomProperty

/-- The runs of name characters of a value and the runs of separators between
    them, in order. -/
def pieces (s : List Char) : List (List Char) :=
  s.splitBy fun a b => isNameChar a == isNameChar b

/-- A text cut where name characters meet separators, and nowhere else. -/
structure IsCut (s : List Char) (parts : List (List Char)) : Prop where
  /-- Nothing is lost between the parts. -/
  flatten_eq : parts.flatten = s
  ne_nil : ∀ part ∈ parts, part ≠ []
  alike : ∀ part ∈ parts, ∀ c ∈ part, ∀ d ∈ part, isNameChar c = isNameChar d
  /-- No part could reach further. -/
  maximal : parts.IsChain fun part next => ∀ c ∈ part, ∀ d ∈ next, isNameChar c ≠ isNameChar d

/-- The position of the first two dashes of a run. -/
def firstDashes? (run : List Char) : Option Nat :=
  run.tails.findIdx? fun rest => ['-', '-'].isPrefixOf rest

/-- The position of the last word character of a run. -/
def lastWord? (run : List Char) : Option Nat :=
  (run.reverse.findIdx? isWordChar).map fun back => run.length - 1 - back

/-- A run with the part from its first two dashes to its last word character
    wrapped, if the second lies behind the first. -/
def wrapRun (run : List Char) : List Char :=
  match firstDashes? run, lastWord? run with
  | some i, some j =>
    if i < j then
      run.take i ++ "var(".toList ++ (run.take (j + 1)).drop i ++ ')' :: run.drop (j + 1)
    else run
  | _, _ => run

/-- What becomes of one piece of a value: a run is wrapped, separators are copied. -/
def rewritePiece (piece : List Char) : List Char :=
  if piece.all isNameChar then wrapRun piece else piece

theorem isNameChar_of_isWordChar (c : Char) (h : isWordChar c = true) : isNameChar c = true := by
  rw [isWordChar, Bool.or_eq_true, beq_iff_eq] at h
  rcases h with halnum | rfl
  · -- None of the excluded characters is a letter or a digit.
    have hne : ∀ d : Char, d.isAlphanum = false → (c == d) = false := by
      intro d hd
      rw [beq_eq_false_iff_ne]
      rintro rfl
      exact Bool.false_ne_true (hd.symm.trans halnum)
    rw [isNameChar, hne _ (by decide), hne _ (by decide), hne _ (by decide),
      Text.isBlank_of_isAlphanum c halnum]
    rfl
  · decide

/-- Neighbours of one kind make a stretch of one kind. -/
theorem isNameChar_eq_of_isChain (c : Char) (rest : List Char)
    (h : (c :: rest).IsChain fun a b => (isNameChar a == isNameChar b) = true) :
    ∀ d ∈ c :: rest, isNameChar d = isNameChar c := by
  induction rest generalizing c with
  | nil =>
      intro d hd
      rw [List.mem_singleton.1 hd]
  | cons next rest ih =>
      rw [List.isChain_cons_cons, beq_iff_eq] at h
      intro d hd
      rcases List.mem_cons.1 hd with rfl | hd
      · rfl
      · exact (ih next h.2 d hd).trans h.1.symm

theorem alike_of_mem_pieces (s part : List Char) (h : part ∈ pieces s) :
    ∀ c ∈ part, ∀ d ∈ part, isNameChar c = isNameChar d := by
  intro c hc d hd
  cases part with
  | nil => exact absurd hc List.not_mem_nil
  | cons first rest =>
      have hall := isNameChar_eq_of_isChain first rest (List.isChain_of_mem_splitBy h)
      rw [hall c hc, hall d hd]

/-- The pieces are the maximal stretches of either kind. -/
theorem isCut_pieces (s : List Char) : IsCut s (pieces s) where
  flatten_eq := List.flatten_splitBy _ s
  ne_nil := fun part hpart => List.ne_nil_of_mem_splitBy hpart
  alike := alike_of_mem_pieces s
  maximal := by
    refine (List.isChain_getLast_head_splitBy _ s).imp_of_mem_imp ?_
    rintro part next hpart hnext ⟨hlast, hhead, hne⟩ c hc d hd heq
    rw [alike_of_mem_pieces s part hpart _ (List.getLast_mem hlast) c hc,
      alike_of_mem_pieces s next hnext _ (List.head_mem hhead) d hd, heq, beq_self_eq_true] at hne
    exact Bool.true_eq_false.mp hne

theorem firstDashes?_cons (c : Char) (rest : List Char) :
    firstDashes? (c :: rest)
      = if ['-', '-'] <+: c :: rest then some 0 else (firstDashes? rest).map (· + 1) := by
  rw [firstDashes?, List.tails_cons, List.findIdx?_cons]
  simp only [List.isPrefixOf_iff_prefix]
  rfl

/-- The first two dashes, by index. -/
theorem firstDashes?_eq_some_iff (run : List Char) (i : Nat) :
    firstDashes? run = some i ↔
      ['-', '-'] <+: run.drop i ∧ ∀ k < i, ¬ ['-', '-'] <+: run.drop k := by
  induction run generalizing i with
  | nil => simp [firstDashes?]
  | cons c rest ih =>
      rw [firstDashes?_cons]
      cases i with
      | zero => simp
      | succ i =>
          rw [Nat.forall_lt_succ_left]
          by_cases h : ['-', '-'] <+: c :: rest
          · simp [h]
          · simp [h, ih]

theorem lastWord?_cons (c : Char) (rest : List Char) :
    lastWord? (c :: rest)
      = ((lastWord? rest).map (· + 1)).or (if isWordChar c then some 0 else none) := by
  rw [lastWord?, lastWord?, List.reverse_cons, List.findIdx?_append, List.length_cons]
  cases h : rest.reverse.findIdx? isWordChar with
  | none =>
      rw [List.findIdx?_singleton]
      by_cases hc : isWordChar c = true
      · simp [hc]
      · simp [hc]
  | some back =>
      have hlt : back < rest.length := by
        rw [← List.length_reverse]
        exact (List.findIdx?_eq_some_iff_findIdx_eq.1 h).1
      have hsub : rest.length + 1 - 1 - back = rest.length - 1 - back + 1 := by omega
      rw [Option.some_or, Option.map_some, Option.map_some, Option.map_some, Option.some_or, hsub]

theorem lastWord?_eq_none_iff (run : List Char) :
    lastWord? run = none ↔ ∀ c ∈ run, isWordChar c = false := by
  rw [lastWord?, Option.map_eq_none_iff, List.findIdx?_eq_none_iff]
  simp only [List.mem_reverse]

/-- The last word character, by index. -/
theorem lastWord?_eq_some_iff (run : List Char) (j : Nat) :
    lastWord? run = some j ↔
      (∃ h : j < run.length, isWordChar run[j] = true) ∧
        ∀ c ∈ run.drop (j + 1), isWordChar c = false := by
  induction run generalizing j with
  | nil => simp [lastWord?]
  | cons c rest ih =>
      rw [lastWord?_cons, Option.or_eq_some_iff]
      cases j with
      | zero => simp [lastWord?_eq_none_iff, and_comm]
      | succ j => simp [ih]

theorem backOff_eq_dropWhile (l : List Char) (next : Option Char)
    (h : next.any isWordChar = false) : backOff l next = l.dropWhile fun c => !isWordChar c := by
  induction l generalizing next with
  | nil => rfl
  | cons last before ih =>
      rw [backOff, h, List.dropWhile_cons]
      by_cases hlast : isWordChar last = true
      · rw [hlast]
        rfl
      · rw [Bool.not_eq_true] at hlast
        rw [hlast]
        exact ih (some last) hlast

/-- Dropping from the back down to the last word character, by index. -/
theorem reverse_dropWhile_reverse (l : List Char) :
    (l.reverse.dropWhile fun c => !isWordChar c).reverse
      = l.take ((lastWord? l).elim 0 (· + 1)) := by
  rw [List.dropWhile_eq_drop_findIdx_not, List.drop_reverse, List.reverse_reverse, lastWord?]
  simp only [Bool.not_not]
  cases h : l.reverse.findIdx? isWordChar with
  | none =>
      have hlen : l.reverse.findIdx isWordChar = l.length := by
        rw [← List.length_reverse, List.findIdx_eq_length]
        exact List.findIdx?_eq_none_iff.1 h
      rw [hlen, Nat.sub_self]
      rfl
  | some back =>
      rcases List.findIdx?_eq_some_iff_findIdx_eq.1 h with ⟨hlt, hback⟩
      rw [List.length_reverse] at hlt
      have hend : l.length - back = l.length - 1 - back + 1 := by omega
      rw [hback, hend]
      rfl

/-- A text at whose front a run ends. -/
def EndsRun (tail : List Char) : Prop :=
  ∀ c ∈ tail.head?, isNameChar c = false

variable {tail : List Char}

theorem EndsRun.takeWhile_eq (h : EndsRun tail) : tail.takeWhile isNameChar = [] := by
  cases tail with
  | nil => rfl
  | cons c rest => rw [List.takeWhile_cons, h c rfl, if_neg Bool.false_ne_true]

theorem EndsRun.dropWhile_eq (h : EndsRun tail) : tail.dropWhile isNameChar = tail := by
  cases tail with
  | nil => rfl
  | cons c rest => rw [List.dropWhile_cons, h c rfl, if_neg Bool.false_ne_true]

/-- No word goes on behind a run. -/
theorem EndsRun.any_head? (h : EndsRun tail) : tail.head?.any isWordChar = false := by
  cases tail with
  | nil => rfl
  | cons c rest =>
      rw [List.head?_cons, Option.any_some, Bool.eq_false_iff]
      intro hword
      exact Bool.false_ne_true ((h c rfl).symm.trans (isNameChar_of_isWordChar c hword))

/-- A name ends at the last word character of its run. -/
theorem referenceName_append (more : List Char) (hmore : ∀ c ∈ more, isNameChar c = true)
    (htail : EndsRun tail) :
    referenceName (more ++ tail) = more.take ((lastWord? more).elim 0 (· + 1)) := by
  rw [referenceName, List.takeWhile_append_of_pos hmore, List.dropWhile_append_of_pos hmore,
    htail.takeWhile_eq, htail.dropWhile_eq, List.append_nil,
    backOff_eq_dropWhile _ _ htail.any_head?, reverse_dropWhile_reverse]

/-- Two dashes do not stand across the end of a run. -/
theorem dashes_prefix_append (run : List Char) (htail : EndsRun tail) :
    ['-', '-'] <+: run ++ tail ↔ ['-', '-'] <+: run := by
  constructor
  · intro h
    -- In the first two cases a dash would stand behind the run, but it is a name character.
    rcases run with _ | ⟨c, _ | ⟨d, more⟩⟩
    · rcases h with ⟨more, rfl⟩
      exact absurd (htail '-' rfl) (by decide)
    · rcases h with ⟨more, hmore⟩
      rw [List.cons_append, List.cons_append, List.singleton_append, List.cons.injEq,
        List.nil_append] at hmore
      rw [← hmore.2] at htail
      exact absurd (htail '-' rfl) (by decide)
    · rw [List.cons_append, List.cons_append, List.cons_prefix_cons, List.cons_prefix_cons] at h
      rw [List.cons_prefix_cons, List.cons_prefix_cons]
      exact ⟨h.1, h.2.1, List.nil_prefix⟩
  · exact fun h => h.trans (List.prefix_append run tail)

theorem expandChars_cons (c : Char) (rest : List Char) (h : ¬ ['-', '-'] <+: c :: rest) :
    expandChars (c :: rest) = c :: expandChars rest := by
  rw [expandChars]
  rintro more rfl rfl
  exact h ⟨more, rfl⟩

theorem expandChars_dashes_of_nil (rest : List Char) (h : referenceName rest = []) :
    expandChars ('-' :: '-' :: rest) = '-' :: expandChars ('-' :: rest) := by
  rw [expandChars, h]

theorem expandChars_dashes (rest : List Char) (h : referenceName rest ≠ []) :
    expandChars ('-' :: '-' :: rest) = "var(--".toList ++ referenceName rest ++
      ')' :: expandChars (rest.drop (referenceName rest).length) := by
  rw [expandChars]
  cases hname : referenceName rest with
  | nil => exact absurd hname h
  | cons first more => rfl

/-- Without a word character a run holds no reference. -/
theorem wrapRun_of_wordless (run : List Char) (h : lastWord? run = none) : wrapRun run = run := by
  rw [wrapRun, h]
  cases firstDashes? run with
  | none => rfl
  | some i => rfl

/-- A run that opens with two dashes is wrapped from its front. -/
theorem wrapRun_dashes (more : List Char) (k : Nat) (h : lastWord? more = some k) :
    wrapRun ('-' :: '-' :: more)
      = "var(--".toList ++ more.take (k + 1) ++ ')' :: more.drop (k + 1) := by
  have hfirst : firstDashes? ('-' :: '-' :: more) = some 0 := by
    rw [firstDashes?_cons, if_pos ⟨more, rfl⟩]
  have hlast : lastWord? ('-' :: '-' :: more) = some (k + 2) := by
    rw [lastWord?_cons, lastWord?_cons, h]
    rfl
  rw [wrapRun, hfirst, hlast]
  exact if_pos (by omega)

/-- A character in front of the first two dashes is copied. -/
theorem wrapRun_cons (c : Char) (rest : List Char) (h : ¬ ['-', '-'] <+: c :: rest) :
    wrapRun (c :: rest) = c :: wrapRun rest := by
  rw [wrapRun, wrapRun, firstDashes?_cons, if_neg h, lastWord?_cons]
  cases firstDashes? rest with
  | none => rfl
  | some i =>
      cases lastWord? rest with
      | none =>
          cases isWordChar c with
          | false => rfl
          | true => rfl
      | some j =>
          -- Both positions are one further, so their order is the same.
          change (if i + 1 < j + 1 then _ else _) = c :: (if i < j then _ else _)
          by_cases hlt : i < j
          · rw [if_pos hlt, if_pos (by omega)]
            rfl
          · rw [if_neg hlt, if_neg (by omega)]

/-- Two dashes with no word character behind them in their run are no reference. -/
theorem expandChars_append_of_wordless (more : List Char)
    (hmore : ∀ c ∈ more, isNameChar c = true) (htail : EndsRun tail) (h : lastWord? more = none) :
    expandChars ('-' :: '-' :: (more ++ tail)) = '-' :: expandChars ('-' :: (more ++ tail)) := by
  refine expandChars_dashes_of_nil (more ++ tail) ?_
  rw [referenceName_append more hmore htail, h]
  rfl

/-- Two dashes open a reference that ends at the last word character of their run. -/
theorem expandChars_append_of_lastWord? (more : List Char) (k : Nat)
    (hmore : ∀ c ∈ more, isNameChar c = true) (htail : EndsRun tail)
    (h : lastWord? more = some k) :
    expandChars ('-' :: '-' :: (more ++ tail))
      = "var(--".toList ++ more.take (k + 1) ++ ')' :: expandChars (more.drop (k + 1) ++ tail) := by
  rcases (lastWord?_eq_some_iff more k).1 h with ⟨⟨hk, _⟩, _⟩
  have hname : referenceName (more ++ tail) = more.take (k + 1) := by
    rw [referenceName_append more hmore htail, h]
    rfl
  have hlen : (more.take (k + 1)).length = k + 1 := by
    rw [List.length_take]
    omega
  have hne : referenceName (more ++ tail) ≠ [] := by
    rw [hname, ← List.length_pos_iff, hlen]
    omega
  rw [expandChars_dashes (more ++ tail) hne, hname, hlen, List.drop_append_of_le_length hk]

/-- The scan of a run, whatever follows it. -/
theorem expandChars_append_run (run : List Char) (hrun : ∀ c ∈ run, isNameChar c = true)
    (htail : EndsRun tail) : expandChars (run ++ tail) = wrapRun run ++ expandChars tail := by
  induction hlen : run.length using Nat.strong_induction_on generalizing run with
  | h n ih =>
      cases run with
      | nil => rfl
      | cons c rest =>
          have hrest : ∀ d ∈ rest, isNameChar d = true :=
            fun d hd => hrun d (List.mem_cons_of_mem c hd)
          have hlt : rest.length < n := hlen ▸ Nat.lt_succ_self _
          by_cases hdashes : ['-', '-'] <+: c :: rest
          · rcases hdashes with ⟨more, heq⟩
            change '-' :: '-' :: more = c :: rest at heq
            cases heq
            have hmore : ∀ d ∈ more, isNameChar d = true :=
              fun d hd => hrest d (List.mem_cons_of_mem '-' hd)
            cases hlast : lastWord? more with
            | none =>
                -- Neither dash opens a reference, and the second one is scanned again.
                have hwordless : lastWord? ('-' :: more) = none := by
                  rw [lastWord?_cons, hlast]
                  rfl
                have hwordless' : lastWord? ('-' :: '-' :: more) = none := by
                  rw [lastWord?_cons, hwordless]
                  rfl
                have hstep := expandChars_append_of_wordless more hmore htail hlast
                have hdash := ih _ hlt ('-' :: more) hrest rfl
                rw [wrapRun_of_wordless _ hwordless] at hdash
                rw [wrapRun_of_wordless _ hwordless']
                exact hstep.trans (congrArg (List.cons '-') hdash)
            | some k =>
                -- What the reference leaves of the run has no word character.
                have hleft : lastWord? (more.drop (k + 1)) = none :=
                  (lastWord?_eq_none_iff _).2 ((lastWord?_eq_some_iff more k).1 hlast).2
                have hshort : (more.drop (k + 1)).length < n := by
                  rw [List.length_cons] at hlt
                  rw [List.length_drop]
                  omega
                have hdrop := ih _ hshort (more.drop (k + 1))
                  (fun d hd => hmore d (List.mem_of_mem_drop hd)) rfl
                rw [wrapRun_of_wordless _ hleft] at hdrop
                have hstep := expandChars_append_of_lastWord? more k hmore htail hlast
                rw [hdrop] at hstep
                rw [wrapRun_dashes more k hlast, List.append_assoc]
                exact hstep
          · have hacross := fun h => hdashes ((dashes_prefix_append (c :: rest) htail).1 h)
            rw [List.cons_append, expandChars_cons c (rest ++ tail) hacross,
              wrapRun_cons c rest hdashes, ih _ hlt rest hrest rfl, List.cons_append]

/-- A separator is copied. -/
theorem expandChars_append_separators (part : List Char) (h : ∀ c ∈ part, isNameChar c = false)
    (s : List Char) : expandChars (part ++ s) = part ++ expandChars s := by
  induction part with
  | nil => rfl
  | cons c rest ih =>
      have hdashes : ¬ ['-', '-'] <+: c :: (rest ++ s) := by
        rw [List.cons_prefix_cons]
        rintro ⟨rfl, _⟩
        exact absurd (h '-' List.mem_cons_self) (by decide)
      rw [List.cons_append, expandChars_cons c (rest ++ s) hdashes,
        ih (fun d hd => h d (List.mem_cons_of_mem c hd)), List.cons_append]

theorem IsCut.rest {s part : List Char} {rest : List (List Char)} (h : IsCut s (part :: rest)) :
    IsCut rest.flatten rest where
  flatten_eq := rfl
  ne_nil := fun next hnext => h.ne_nil next (List.mem_cons_of_mem part hnext)
  alike := fun next hnext => h.alike next (List.mem_cons_of_mem part hnext)
  maximal := h.maximal.tail

/-- Behind a run stands a separator, or nothing. -/
theorem IsCut.endsRun {s part : List Char} {rest : List (List Char)} (h : IsCut s (part :: rest))
    (hall : ∀ c ∈ part, isNameChar c = true) : EndsRun rest.flatten := by
  intro d hd
  cases rest with
  | nil => exact absurd hd (Option.not_mem_none d)
  | cons next more =>
      rcases List.exists_mem_of_ne_nil part (h.ne_nil part List.mem_cons_self) with ⟨c, hc⟩
      have hnext : next ≠ [] := h.ne_nil next (List.mem_cons_of_mem part List.mem_cons_self)
      rw [List.flatten_cons, List.head?_append_of_ne_nil _ hnext] at hd
      have hne := (List.isChain_cons_cons.1 h.maximal).1 c hc d (List.mem_of_mem_head? hd)
      rw [hall c hc] at hne
      exact eq_false_of_ne_true hne.symm

/-- A piece that is no run has separators only. -/
theorem IsCut.separators {s : List Char} {parts : List (List Char)} (h : IsCut s parts)
    (part : List Char) (hmem : part ∈ parts) (hall : ¬ part.all isNameChar = true) :
    ∀ c ∈ part, isNameChar c = false := by
  intro c hc
  rw [List.all_eq_true] at hall
  push Not at hall
  rcases hall with ⟨d, hd, hsep⟩
  rw [h.alike part hmem c hc d hd]
  exact eq_false_of_ne_true hsep

/-- The scan over pieces is what becomes of each. -/
theorem expandChars_of_isCut (parts : List (List Char)) (s : List Char) (h : IsCut s parts) :
    expandChars s = parts.flatMap rewritePiece := by
  induction parts generalizing s with
  | nil =>
      rw [← h.flatten_eq, List.flatten_nil, expandChars]
      rfl
  | cons part rest ih =>
      rw [← h.flatten_eq, List.flatten_cons, List.flatMap_cons, ← ih rest.flatten h.rest,
        rewritePiece]
      by_cases hall : part.all isNameChar = true
      · have hrun := List.all_eq_true.1 hall
        rw [if_pos hall, expandChars_append_run part hrun (h.endsRun hrun)]
      · rw [if_neg hall, expandChars_append_separators part
          (h.separators part List.mem_cons_self hall) rest.flatten]

/-- A piece is copied, or one part of it is wrapped and the rest stays where it is. -/
theorem rewritePiece_eq_or (piece : List Char) :
    rewritePiece piece = piece ∨
      ∃ before name after, piece = before ++ name ++ after ∧
        rewritePiece piece = before ++ "var(".toList ++ name ++ ')' :: after ∧
        ['-', '-'] <+: name ∧ ∀ c ∈ after, isWordChar c = false := by
  rw [rewritePiece, wrapRun]
  split
  · split
    · rename_i i j hfirst hlast
      by_cases hlt : i < j
      · -- The dashes stand before the last word character, so the name lies between them.
        have htake : piece.take i = (piece.take (j + 1)).take i := by
          rw [List.take_take, Nat.min_eq_left (by omega)]
        rw [if_pos hlt]
        refine Or.inr ⟨piece.take i, (piece.take (j + 1)).drop i, piece.drop (j + 1),
          ?_, rfl, ?_, ?_⟩
        · rw [htake, List.take_append_drop, List.take_append_drop]
        · rw [List.drop_take, List.prefix_take_iff]
          exact ⟨((firstDashes?_eq_some_iff piece i).1 hfirst).1,
            by rw [List.length_cons, List.length_singleton]; omega⟩
        · exact ((lastWord?_eq_some_iff piece j).1 hlast).2
      · exact Or.inl (if_neg hlt)
    · exact Or.inl rfl
  · exact Or.inl rfl

/-- A value with its references wrapped, piece by piece. The pieces are the runs of
    name characters and the separators between them, as long as they can be. Each is
    copied, or the part of it from its first two dashes to its last word character
    is wrapped, and every character stays where it was. -/
theorem expand_eq_pieces (value : String) :
    IsCut value.toList (pieces value.toList) ∧
      (expand value).toList = (pieces value.toList).flatMap rewritePiece ∧
      ∀ piece ∈ pieces value.toList,
        rewritePiece piece = piece ∨
          ∃ before name after, piece = before ++ name ++ after ∧
            rewritePiece piece = before ++ "var(".toList ++ name ++ ')' :: after ∧
            ['-', '-'] <+: name ∧ ∀ c ∈ after, isWordChar c = false := by
  refine ⟨isCut_pieces value.toList, ?_, fun piece _ => rewritePiece_eq_or piece⟩
  rw [expand, String.toList_ofList]
  exact expandChars_of_isCut _ _ (isCut_pieces value.toList)

example : (pieces "0 x--a,--b)".toList).map rewritePiece
    = ["0".toList, " ".toList, "xvar(--a,--b))".toList] := by decide +kernel

end CustomProperty

end AtomicCss
