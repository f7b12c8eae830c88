import AtomicCss.Proofs.Tracker.Step

/-!
# Class Names and Their Rules

No element has a class name without a rule.

A tracker takes the place of whoever wrote an attribute: the tokens are gone, and
what the element has instead are names that mean nothing but for the sheet. A
name whose rule is not there would be an element that silently lost its style.
So every name that a tracker has put into an attribute has to have its rule in the
sheet, from the moment it is put there and for good.

From that moment: compiling adds the rules of the very directives whose names it
joins, and splitting the attribute at its blanks gives these names back and no
others (`backed_compiled`). For good: a sheet in memory only grows, and an
attribute that is backed stays backed under any sheet with more rules
(`backed_mono`).

The other moves put no name anywhere. A report that is let pass leaves the
attribute that is remembered, an insertion and a removal leave nothing, and an
attribute without an underscore is remembered as it came, since nothing in it was
put there by the tracker.

## Main definitions

* `Backed`: Each name of an attribute has its rule in a sheet.
* `Tracker.AllBacked`: Every attribute that was compiled is backed.

## Theorems

* `backed_mono`: More rules do no harm.
* `backed_compiled`: A compiled attribute is backed by the rules it came with.
* `kept_allBacked`: Each move keeps all attributes backed.
* `backed_of_classOf`: After any history, no name is without a rule.
-/

namespace AtomicCss

open Text

/-- Each name of the attribute is the class name of a directive whose rule is in
    the sheet. -/
def Backed (sheet : MemorySheet) (attr : String) : Prop :=
  ∀ name ∈ words attr, ∃ d : Directive, d.className = name ∧ d.ruleText ∈ sheet.rules

theorem backed_mono (sheet more : MemorySheet) (attr : String)
    (hsub : ∀ rule ∈ sheet.rules, rule ∈ more.rules) (h : Backed sheet attr) : Backed more attr := by
  intro name hname
  rcases h name hname with ⟨d, hd, hrule⟩
  exact ⟨d, hd, hsub _ hrule⟩

namespace Tracker

theorem rules_withRules (t : Tracker MemorySheet) (attr : String) :
    (t.withRules attr).sheet.rules = t.sheet.rules ++
      ((directives t.synthesizer.config.schemeMatch attr).map Directive.ruleText).toArray :=
  MemorySheet.rules_appendAll t.sheet _

/-- Compiling backs what it writes. -/
theorem backed_compiled (t : Tracker MemorySheet) (attr : String) :
    Backed (t.withRules attr).sheet (t.compiled attr) := by
  intro name hname
  -- The names that were joined are found again, and each came from a directive.
  rw [compiled, words_intercalate _ (isWord_of_mem_names _)] at hname
  rcases List.mem_map.1 hname with ⟨d, hd, rfl⟩
  refine ⟨d, rfl, ?_⟩
  rw [rules_withRules]
  exact Array.mem_append.2 (Or.inr (List.mem_toArray.2 (List.mem_map_of_mem hd)))

/-- Every attribute that is remembered is backed, unless it came without an
    underscore. -/
def AllBacked (t : Tracker MemorySheet) : Prop :=
  ∀ node attr, t.classOf node = some attr → isUtility attr = false ∨ Backed t.sheet attr

/-- News only adds rules. -/
theorem mem_rules_handle (t : Tracker MemorySheet) (event : ClassEvent) (rule : String)
    (h : rule ∈ t.sheet.rules) : rule ∈ (t.handle event).value.2.sheet.rules := by
  by_cases hutility : isUtility event.attr = true
  · have hsheet : (t.handle event).value.2.sheet = (t.withRules event.attr).sheet := by
      rw [handle_of_utility t event hutility]
      rfl
    rw [hsheet, rules_withRules]
    exact Array.mem_append.2 (Or.inl h)
  · rw [handle_of_plain t event (Bool.eq_false_iff.2 hutility)]
    exact h

theorem allBacked_handle (t : Tracker MemorySheet) (event : ClassEvent) (h : t.AllBacked) :
    (t.handle event).value.2.AllBacked := by
  intro node attr hattr
  rw [classOf_handle] at hattr
  by_cases hnode : event.node = node
  · rw [if_pos hnode, Option.some.injEq] at hattr
    by_cases hutility : isUtility event.attr = true
    · rw [if_pos hutility] at hattr
      rw [← hattr, handle_of_utility t event hutility]
      exact Or.inr (t.backed_compiled event.attr)
    · rw [if_neg hutility] at hattr
      rw [← hattr]
      exact Or.inl (Bool.eq_false_iff.2 hutility)
  · -- The other elements only see a sheet with more rules.
    rw [if_neg hnode] at hattr
    exact (h node attr hattr).imp_right (backed_mono _ _ attr (t.mem_rules_handle event))

theorem kept_allBacked : Kept AllBacked fun _ => True where
  handle t event _ h := t.allBacked_handle event h
  clear t node _ _ h other attr hattr := h other attr (by rwa [classOf_clear] at hattr)
  insert t node parent h other attr hattr := by
    rw [classOf_insert] at hattr
    by_cases hnode : node = other
    · rw [if_pos hnode] at hattr
      exact absurd hattr (by simp only [reduceCtorEq, not_false_eq_true])
    · rw [if_neg hnode] at hattr
      exact h other attr hattr
  forget t node h other attr hattr := h other attr (t.classOf_of_forget node other attr hattr)
  take _ h := h

/-- After any history, an element's attribute has no underscore, or each name in it
    is the class name of a directive whose rule is in the sheet. -/
theorem backed_of_classOf (sheet : MemorySheet) (config : Config) (calls : List Call)
    (node : NodeKey) (attr : String)
    (h : ((new sheet config).run calls).value.2.classOf node = some attr) :
    isUtility attr = false ∨ Backed ((new sheet config).run calls).value.2.sheet attr := by
  refine kept_allBacked.run _ calls (fun _ _ _ _ => trivial) ?_ node attr h
  -- A new tracker knows no element.
  intro other value hvalue
  exact absurd hvalue (by simp only [new, classOf, Std.TreeMap.getElem?_emptyc, Option.bind_none,
    reduceCtorEq, not_false_eq_true])

/-- An attribute whose write was reported back, on an element that was inserted. -/
theorem backed_of_classOf_two_names :
    let calls : List Call := [.update (.insertElement .root ⟨1⟩ "div" 0),
      .update (.setAttr ⟨1⟩ "class" "pc@color_red card hover:gap_1px"), .take,
      .update (.setAttr ⟨1⟩ "CLASS" "color_red gap_1px")]
    let t := ((new ({} : MemorySheet) {}).run calls).value.2
    t.classOf ⟨1⟩ = some "color_red gap_1px" ∧ isUtility "color_red gap_1px" = true ∧
      t.sheet.rules.size = 2 ∧
      (isUtility "color_red gap_1px" = false ∨ Backed t.sheet "color_red gap_1px") := by
  intro calls t
  have hclass : t.classOf ⟨1⟩ = some "color_red gap_1px" := by decide +kernel
  exact ⟨hclass, by decide, by decide +kernel,
    backed_of_classOf {} {} calls ⟨1⟩ "color_red gap_1px" hclass⟩

end Tracker

end AtomicCss
