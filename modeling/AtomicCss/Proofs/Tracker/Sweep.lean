import AtomicCss.Proofs.Tracker.Step

/-!
# Sweeps

What a sweep leaves out, and that leaving it out loses nothing.

A sweep asks one thing of each attribute before it compiles it, namely whether there is an
underscore in it. That is a question about the whole text. Whether a token has a directive is
decided token by token, and only after a breakpoint, a scheme and a chain of pseudo-classes
were taken off in front, in one of two ways. The question still cannot miss a directive:
whatever is taken off, what is left is an end of the token, the token is made of characters of
the attribute, and only a token with an underscore left in it has a directive. So an attribute
that is left out would have added no rule, and the sheet is the one that compiling every
attribute of the list leads to (`Synthesizer.compileAll`).

The converse does not hold, and does not have to. An attribute with an underscore may have no
directive, and it is compiled and counted all the same. Its compiled form then has no underscore
left, for every class name has one and nothing else in a compiled attribute does.

An element may be listed more than once. Each pair of the list is news of its own, and the last
one decides what is remembered, since news of other elements does not touch it.

## Main definitions

* `Synthesizer.compileAll`: The synthesizer after a list of attributes.

## Theorems

* `synthesizer_handle`: News leads to the sheet that compiling leads to.
* `synthesizer_sweep`, `count_sweep`, `classOf_sweep`: A sweep, pair by pair.
* `sweep_loses_nothing`: All that a sweep leads to.
-/

namespace AtomicCss

open Text

variable {σ : Type} [Stylesheet σ]

/-- The synthesizer after all attributes of a list were compiled, the first one first. -/
def Synthesizer.compileAll (s : Synthesizer σ) (attrs : List String) : Synthesizer σ :=
  attrs.foldl (fun s attr => (s.compile attr).value.2) s

namespace Tracker

theorem isUtility_iff (attr : String) : isUtility attr = true ↔ '_' ∈ attr.toList := by
  rw [isUtility, List.contains_iff_mem]

/-- News leads to the sheet that compiling its attribute leads to, also where it is not
    compiled. -/
theorem synthesizer_handle (t : Tracker σ) (event : ClassEvent) :
    (t.handle event).value.2.synthesizer = (t.synthesizer.compile event.attr).value.2 := by
  by_cases hutility : isUtility event.attr = true
  · rw [handle_of_utility t event hutility, Synthesizer.compile_value]
    rfl
  · rw [handle_of_plain t event (Bool.eq_false_iff.2 hutility), Synthesizer.compile_value,
      directives_of_no_underscore _ _ (fun hmem => hutility ((isUtility_iff event.attr).2 hmem))]
    rfl

/-- A sweep leads to the sheet that compiling every attribute leads to. -/
theorem synthesizer_sweep (t : Tracker σ) (elements : List (NodeKey × String)) :
    (t.sweep elements).value.2.synthesizer = t.synthesizer.compileAll (elements.map (·.2)) := by
  induction elements generalizing t with
  | nil => rfl
  | cons entry rest ih =>
      have hrest := ih (t.handle (.added entry.1 entry.2)).value.2
      rw [synthesizer_handle] at hrest
      exact hrest

/-- A sweep counts the attributes with an underscore. -/
theorem count_sweep (t : Tracker σ) (elements : List (NodeKey × String)) :
    (t.sweep elements).value.1 = elements.countP fun entry => isUtility entry.2 := by
  induction elements generalizing t with
  | nil => rfl
  | cons entry rest ih =>
      change ((t.handle (.added entry.1 entry.2)).value.2.sweep rest).value.1 +
        (if (t.handle (.added entry.1 entry.2)).value.1.isSome then 1 else 0) = _
      rw [ih, value_handle, List.countP_cons]
      -- The news is answered exactly if the pair is counted.
      change _ + (if Option.isSome (if isUtility entry.2 = true then _ else _) then 1 else 0) = _
      by_cases hutility : isUtility entry.2 = true
      · rw [if_pos hutility, if_pos hutility]
        rfl
      · rw [if_neg hutility, if_neg hutility]
        rfl

/-- What a sweep makes of an element is decided by the last pair that names it. The induction
    is on the list from its front, and a pair counts only if none behind it does. -/
theorem classOf_sweep (t : Tracker σ) (elements : List (NodeKey × String)) (node : NodeKey) :
    (t.sweep elements).value.2.classOf node =
      match elements.reverse.find? fun entry => entry.1 = node with
      | some entry => some (if isUtility entry.2 = true then t.compiled entry.2 else entry.2)
      | none => t.classOf node := by
  induction elements generalizing t with
  | nil => rfl
  | cons entry rest ih =>
      have hrest := ih (t.handle (.added entry.1 entry.2)).value.2
      rw [compiled_handle, classOf_handle] at hrest
      rw [List.reverse_cons, List.find?_append]
      change ((t.handle (.added entry.1 entry.2)).value.2.sweep rest).value.2.classOf node = _
      rw [hrest]
      cases rest.reverse.find? fun entry => entry.1 = node with
      | some later => rfl
      | none =>
          rw [Option.none_or, List.find?_singleton]
          change (if entry.1 = node then _ else _) = _
          by_cases hnode : entry.1 = node
          · rw [if_pos hnode, if_pos (decide_eq_true hnode)]
            rfl
          · rw [if_neg hnode, if_neg (fun htrue => hnode (of_decide_eq_true htrue))]

/-- All that a sweep leads to. The sheet is the one that compiling every attribute of the list
    leads to, those without an underscore included. The answer is the number of attributes with
    an underscore. What an element has afterwards is the attribute of the last pair that names
    it, compiled if there is an underscore in it, and elements that are not named keep theirs.
    And a compiled attribute has an underscore exactly if one of its tokens was replaced. -/
theorem sweep_loses_nothing (t : Tracker σ) (elements : List (NodeKey × String)) :
    let swept := (t.sweep elements).value
    swept.2.synthesizer = t.synthesizer.compileAll (elements.map (·.2)) ∧
    swept.1 = (elements.filter fun entry => '_' ∈ entry.2.toList).length ∧
    (∀ node, swept.2.classOf node =
      match elements.reverse.find? fun entry => entry.1 = node with
      | some (_, attr) =>
        some (if '_' ∈ attr.toList then (t.synthesizer.compile attr).value.1 else attr)
      | none => t.classOf node) ∧
    ∀ (s : Synthesizer σ) (attr : String),
      '_' ∈ (s.compile attr).value.1.toList ↔
        ∃ token ∈ words attr, (s.resolve token).value.1.isSome := by
  intro swept
  refine ⟨t.synthesizer_sweep elements, ?_, ?_, ?_⟩
  · rw [show swept.1 = _ from t.count_sweep elements, List.countP_eq_length_filter]
    refine congrArg (fun p => (elements.filter p).length) (funext fun entry => ?_)
    rw [Bool.eq_iff_iff, isUtility_iff, decide_eq_true_eq]
  · intro node
    rw [show swept.2.classOf node = _ from t.classOf_sweep elements node]
    cases elements.reverse.find? fun entry => entry.1 = node with
    | none => rfl
    | some entry => simp only [isUtility_iff, value_compile]
  · exact fun s attr => (s.underscore_mem_compile_iff attr).trans (s.directives_ne_nil_iff attr)

-- The first element is named twice, and its second attribute has an underscore and no directive.
-- The second one has two prefixes and no underscore behind them.
example :
    let swept := ((new ({} : MemorySheet) {}).sweep [(⟨1⟩, "gap_1px"), (⟨2⟩, "phone@dark.plain"),
      (⟨1⟩, "hover:_red wide")]).value
    swept.1 = 2 ∧ swept.2.classOf ⟨1⟩ = some "" ∧ swept.2.classOf ⟨2⟩ = some "phone@dark.plain" ∧
      swept.2.sheet.rules = #[".gap_1px\x7bgap:1px\x7d"] := by
  decide +kernel

end Tracker

end AtomicCss
