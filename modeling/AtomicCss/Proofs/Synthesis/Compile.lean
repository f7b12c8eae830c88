import AtomicCss.Proofs.Directive.ClassName
import AtomicCss.Proofs.Token.Grammar
import AtomicCss.Synthesis

/-!
# What Compiling Computes

The answer of a compilation, with the sheet and the log set apart.

Compiling goes through the tokens of an attribute one by one, with a sheet in
hand that each token may change and a log that each token may add to. None of
that is read by a later token: a token is read under the configuration alone. So
the whole has a closed form. The directives of an attribute are the directives of
its words, those without one left out; the compiled attribute is their names,
joined; and the sheet is the old one with their rules added, in order.

`compile_value` is all that later modules need to know about the synthesizer. The
stylesheet may be of any kind.

## Main definitions

* `Stylesheet.appendAll`: A sheet with a list of rules added.
* `directives`: The directives of a class attribute.
* `Synthesizer.dropRecord`: The record of a dropped token.

## Theorems

* `resolve_of_error`: What a dropped token leaves.
* `resolve_value`: What one token does.
* `resolveAll_value`: What a list of tokens does.
* `compile_value`: What a class attribute does.
* `directives_of_no_underscore`: An attribute without an underscore has no directives.
* `underscore_mem_compile_iff`: When a compiled attribute has an underscore.
* `isWord_of_mem_names`: Compiled names are words.
-/

namespace AtomicCss

open Text

variable {σ : Type} [Stylesheet σ]

/-- A sheet with a list of rules added, the first one first. -/
def Stylesheet.appendAll (sheet : σ) (rules : List String) : σ :=
  rules.foldl (fun s rule => (Stylesheet.append s rule).value) sheet

/-- The directives of a class attribute, in the order of its words. A word
    without a directive is left out. -/
def directives (m : SchemeMatch) (attr : String) : List Directive :=
  (words attr).filterMap fun token => (Token.read m token).toOption

theorem mem_directives (m : SchemeMatch) (attr : String) (d : Directive) :
    d ∈ directives m attr ↔ ∃ token ∈ words attr, Token.read m token = .ok d := by
  rw [directives, List.mem_filterMap]
  refine exists_congr (fun token => and_congr_right (fun _ => ?_))
  cases Token.read m token <;> simp [Except.toOption]

/-- An attribute without an underscore has no directives, since no word of it has one. -/
theorem directives_of_no_underscore (m : SchemeMatch) (attr : String) (h : '_' ∉ attr.toList) :
    directives m attr = [] := by
  rw [List.eq_nil_iff_forall_not_mem]
  intro d hd
  rcases (mem_directives m attr d).1 hd with ⟨token, htoken, hread⟩
  exact h (mem_of_mem_words attr token '_' htoken (Token.underscore_mem_of_read m token d hread))

/-- Compiled names are words, so they can be found again once they are joined. -/
theorem isWord_of_mem_names (ds : List Directive) (name : String)
    (h : name ∈ ds.map Directive.className) : IsWord name := by
  rcases List.mem_map.1 h with ⟨d, _, rfl⟩
  exact d.isWord_className

namespace Synthesizer

/-- The record of a dropped token. -/
def dropRecord (token : String) (reason : Token.DropReason) : Entry :=
  ⟨.trace, logTarget, s!"dropped {quoted token}: {reason.name}"⟩

/-- A dropped token leaves its record, if that is wanted, and nothing else. -/
theorem resolve_of_error (s : Synthesizer σ) (token : String) (reason : Token.DropReason)
    (h : Token.read s.config.schemeMatch token = .error reason) :
    s.resolve token =
      ⟨(none, s), if s.config.traceDroppedTokens then [dropRecord token reason] else []⟩ := by
  unfold resolve
  rw [h]
  by_cases htrace : s.config.traceDroppedTokens = true
  · simp only [if_pos htrace]
    rfl
  · simp only [if_neg htrace]
    rfl

/-- One token: its directive's rule is added and its name is the answer, or
    nothing happens. -/
theorem resolve_value (s : Synthesizer σ) (token : String) :
    (s.resolve token).value =
      match Token.read s.config.schemeMatch token with
      | .ok d => (some d.className, { s with sheet := (Stylesheet.append s.sheet d.ruleText).value })
      | .error _ => (none, s) := by
  cases hread : Token.read s.config.schemeMatch token with
  | ok d =>
      unfold resolve synthesize
      rw [hread]
      rfl
  | error reason => rw [resolve_of_error s token reason hread]

/-- A list of tokens. The induction goes through the list with the sheet free to
    change; the configuration stays, and the tokens are read under it. -/
theorem resolveAll_value (s : Synthesizer σ) (tokens : List String) :
    (s.resolveAll tokens).value =
      let ds := tokens.filterMap fun token => (Token.read s.config.schemeMatch token).toOption
      (ds.map Directive.className,
        { s with sheet := Stylesheet.appendAll s.sheet (ds.map Directive.ruleText) }) := by
  induction tokens generalizing s with
  | nil => rfl
  | cons token rest ih =>
      simp only [resolveAll, Logged.value_bind, Logged.value_pure, resolve_value]
      cases hread : Token.read s.config.schemeMatch token with
      | error reason => simp only [ih, List.filterMap_cons, hread, Except.toOption]; rfl
      | ok d => simp only [ih, List.filterMap_cons, hread, Except.toOption]; rfl

/-- A class attribute: the names of its directives, joined, and the sheet with
    their rules. -/
theorem compile_value (s : Synthesizer σ) (attr : String) :
    (s.compile attr).value =
      (String.intercalate " " ((directives s.config.schemeMatch attr).map Directive.className),
        { s with
          sheet := Stylesheet.appendAll s.sheet
            ((directives s.config.schemeMatch attr).map Directive.ruleText) }) := by
  simp only [compile, Logged.value_bind, Logged.value_pure, resolveAll_value]
  rfl

/-- A compiled attribute has an underscore exactly if a name is in it. Every name has one, and
    between the names there are only spaces. -/
theorem underscore_mem_compile_iff (s : Synthesizer σ) (attr : String) :
    '_' ∈ (s.compile attr).value.1.toList ↔ directives s.config.schemeMatch attr ≠ [] := by
  rw [compile_value]
  cases directives s.config.schemeMatch attr with
  | nil => exact iff_of_false List.not_mem_nil (fun hne => hne rfl)
  | cons d more =>
      refine iff_of_true ?_ (List.cons_ne_nil d more)
      have hname : '_' ∈ d.className.toList := by
        rw [Directive.toList_className]
        exact List.mem_append_right _ List.mem_cons_self
      rw [String.toList_intercalate, List.map_cons, List.map_cons]
      cases more with
      | nil =>
          rw [List.map_nil, List.map_nil, List.intercalate_singleton]
          exact hname
      | cons next rest =>
          rw [List.map_cons, List.map_cons, List.intercalate_cons_cons]
          exact List.mem_append_left _ (List.mem_append_left _ hname)

/-- A name is in a compiled attribute exactly if one of its tokens was replaced. -/
theorem directives_ne_nil_iff (s : Synthesizer σ) (attr : String) :
    directives s.config.schemeMatch attr ≠ [] ↔
      ∃ token ∈ words attr, (s.resolve token).value.1.isSome := by
  rw [← List.isEmpty_eq_false_iff, List.isEmpty_eq_false_iff_exists_mem]
  simp only [mem_directives]
  rw [exists_comm]
  refine exists_congr (fun token => ?_)
  rw [exists_and_left, resolve_value]
  refine and_congr_right (fun _ => ?_)
  cases Token.read s.config.schemeMatch token with
  | ok d => exact iff_of_true ⟨d, rfl⟩ rfl
  | error reason =>
      exact iff_of_false (by simp only [reduceCtorEq, exists_false, not_false_eq_true])
        Bool.false_ne_true

end Synthesizer

end AtomicCss
