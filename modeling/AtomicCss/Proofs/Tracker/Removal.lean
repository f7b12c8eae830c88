import AtomicCss.Proofs.Tracker.Step
import Mathlib.Logic.Basic
import Mathlib.Logic.Relation
import Mathlib.Tactic.ByContra

/-!
# Removal of a Subtree

Which elements are forgotten when a node is taken out.

The search for what is below a node deletes from the very collection it goes
through, and it is told only parents, which may be wrong in every way: they may
never have been tracked, and they may go round in a circle. Two things could go
amiss. An element could be forgotten that is not below the node, and one could be
overlooked because the element above it was forgotten first and the way down to
it was lost.

Neither happens, and the reason is what holds between two visits (`Searching`).
Whatever has been forgotten or waits to be visited is at or below the node. And an
element that is still there, with a parent that is not, has its parent waiting: a
node joins the queue in the moment it leaves the elements, and it leaves the queue
only when its children have left the elements too. When nothing waits, no element
is left whose parent was forgotten, so going down a chain of parents from the node
meets forgotten elements only.

The children of a node come in no particular order. `SearchStep` therefore leaves
the order open at each visit, both in which the children leave and in which they
join the queue. Every search ends, since a child has to be there in order to join,
and however it went, the same elements are left.

## Main definitions

* `Elements.HasParent`, `Elements.Under`: The parent of an element, and the chains
  of parents that lead to a node.
* `Elements.SearchStep`: One visit, the children in any order.
* `Elements.Searching`: What holds between two visits.

## Theorems

* `wellFounded_searchStep`: Every search ends.
* `searching_step`: A visit keeps what holds.
* `getElem?_of_searching_nil`: What is left when nothing waits.
* `search_forget`: Forgetting is one of the searches.
* `mem_forget_iff`: Which elements are left by it.
* `removal_exact`: All of it, said of a tracker.
-/

namespace AtomicCss

namespace Elements

/-- The element is tracked, under the given parent. -/
def HasParent (elements : Elements) (key parent : NodeKey) : Prop :=
  ∃ e, elements[key]? = some e ∧ e.parent = some parent

/-- A chain of parents leads from a key to a node, each tracked but perhaps the
    last. The chain may be empty: a node lies under itself. -/
def Under (elements : Elements) (node key : NodeKey) : Prop :=
  Relation.ReflTransGen elements.HasParent key node

/-- One visit of the search. The first node of the queue leaves it, its children
    leave the elements and join the queue, each in an order of its own. -/
inductive SearchStep : Elements × List NodeKey → Elements × List NodeKey → Prop
  | visit (elements : Elements) (node : NodeKey) (rest leaving joining : List NodeKey)
      (hleaving : leaving.Perm (elements.childrenOf node))
      (hjoining : joining.Perm (elements.childrenOf node)) :
      SearchStep (elements, node :: rest) (elements.eraseAll leaving, joining ++ rest)

theorem mem_iff_exists (elements : Elements) (key : NodeKey) :
    key ∈ elements ↔ ∃ e, elements[key]? = some e := by
  rw [Std.TreeMap.mem_iff_isSome_getElem?, Option.isSome_iff_exists]

theorem mem_childrenOf_iff (elements : Elements) (key node : NodeKey) :
    key ∈ elements.childrenOf node ↔ elements.HasParent key node :=
  mem_childrenOf

theorem mem_of_hasParent (elements : Elements) (key parent : NodeKey)
    (h : elements.HasParent key parent) : key ∈ elements := by
  rcases h with ⟨e, he, _⟩
  exact (mem_iff_exists elements key).2 ⟨e, he⟩

theorem mem_eraseAll_iff (elements : Elements) (keys : List NodeKey) (key : NodeKey) :
    key ∈ elements.eraseAll keys ↔ key ∈ elements ∧ key ∉ keys := by
  rw [mem_iff_exists, mem_iff_exists, getElem?_eraseAll]
  by_cases h : key ∈ keys
  · rw [if_pos h]
    simp only [reduceCtorEq, exists_false, h, not_true_eq_false, and_false]
  · rw [if_neg h]
    simp only [h, not_false_eq_true, and_true]

/-- A visit makes the elements and the queue fewer, taken together. -/
theorem size_lt_of_searchStep (state next : Elements × List NodeKey) (h : SearchStep state next) :
    next.1.size + next.2.length < state.1.size + state.2.length := by
  cases h with
  | visit elements node rest leaving joining hleaving hjoining =>
      have hnodup : leaving.Nodup := hleaving.nodup_iff.2 (nodup_childrenOf elements node)
      have htracked : ∀ key ∈ leaving, key ∈ elements := by
        intro key hkey
        exact mem_of_hasParent elements key node
          ((mem_childrenOf_iff elements key node).1 (hleaving.mem_iff.1 hkey))
      have hsize := size_eraseAll hnodup htracked
      have hlength : joining.length = leaving.length := (hjoining.trans hleaving.symm).length_eq
      simp only [List.length_append, List.length_cons]
      omega

/-- Every search ends. -/
theorem wellFounded_searchStep :
    WellFounded (fun next state : Elements × List NodeKey => SearchStep state next) :=
  Subrelation.wf (fun h => size_lt_of_searchStep _ _ h)
    (measure fun state : Elements × List NodeKey => state.1.size + state.2.length).wf

/-- A search stops only when nothing waits to be visited. -/
theorem queue_nil_of_stuck (state : Elements × List NodeKey)
    (h : ∀ next, ¬ SearchStep state next) : state.2 = [] := by
  rcases state with ⟨elements, queue⟩
  cases queue with
  | nil => rfl
  | cons node rest =>
      exact absurd (.visit elements node rest _ _ (List.Perm.refl _) (List.Perm.refl _)) (h _)

/-- What holds between two visits of a search for what is below `node`, where
    `before` are the elements that it began with. -/
structure Searching (before : Elements) (node : NodeKey) (state : Elements × List NodeKey) :
    Prop where
  kept : ∀ (key : NodeKey) (e : Element), state.1[key]? = some e → before[key]? = some e
  node_gone : node ∉ state.1
  under_of_gone : ∀ key ∈ before, key ∉ state.1 → before.Under node key
  under_of_waiting : ∀ key ∈ state.2, before.Under node key
  parent_waits : ∀ key parent, state.1.HasParent key parent → parent ∉ state.1 →
    before.Under node parent → parent ∈ state.2

theorem searching_start (elements : Elements) (node : NodeKey) :
    Searching elements node (elements.erase node, [node]) where
  kept key e h := getElem?_of_erase elements node key e h
  node_gone := by
    rw [mem_iff_exists, getElem?_erase, if_pos rfl]
    simp only [reduceCtorEq, exists_false, not_false_eq_true]
  under_of_gone key hmem hgone := by
    rw [mem_iff_exists, getElem?_erase] at hgone
    by_cases heq : node = key
    · rw [heq]
      exact Relation.ReflTransGen.refl
    · rw [if_neg heq] at hgone
      exact absurd ((mem_iff_exists elements key).1 hmem) hgone
  under_of_waiting key hmem := by
    rw [List.mem_singleton.1 hmem]
    exact Relation.ReflTransGen.refl
  parent_waits key parent hparent hgone hunder := by
    rw [List.mem_singleton]
    -- Only the node itself was erased, and what lies under it was tracked.
    rcases Relation.ReflTransGen.cases_head hunder with heq | ⟨above, habove, _⟩
    · exact heq
    · by_contra hne
      have hmem := mem_of_hasParent elements parent above habove
      rw [mem_iff_exists] at hmem
      rw [mem_iff_exists, getElem?_erase, if_neg (fun heq => hne heq.symm)] at hgone
      exact hgone hmem

/-- A visit keeps what holds: the children it takes out are below the node, since
    their parent is, and they wait from then on. -/
theorem searching_step (before : Elements) (node : NodeKey) (state next : Elements × List NodeKey)
    (hstep : SearchStep state next) (h : Searching before node state) :
    Searching before node next := by
  cases hstep with
  | visit elements current rest leaving joining hleaving hjoining =>
      have hcurrent : before.Under node current := h.under_of_waiting current List.mem_cons_self
      have hchild : ∀ key, key ∈ elements.childrenOf current → before.Under node key := by
        intro key hkey
        rcases mem_childrenOf.1 hkey with ⟨e, he, hparent⟩
        exact Relation.ReflTransGen.head ⟨e, h.kept key e he, hparent⟩ hcurrent
      refine ⟨?_, ?_, ?_, ?_, ?_⟩
      · intro key e he
        exact h.kept key e (getElem?_of_eraseAll elements leaving key e he)
      · rw [mem_eraseAll_iff]
        exact fun hand => h.node_gone hand.1
      · intro key hmem hgone
        rw [mem_eraseAll_iff, not_and_not_right] at hgone
        by_cases hstill : key ∈ elements
        · exact hchild key (hleaving.mem_iff.1 (hgone hstill))
        · exact h.under_of_gone key hmem hstill
      · intro key hmem
        rcases List.mem_append.1 hmem with hnew | hold
        · exact hchild key (hjoining.mem_iff.1 hnew)
        · exact h.under_of_waiting key (List.mem_cons_of_mem current hold)
      · intro key parent hparent hgone hunder
        rcases hparent with ⟨e, he, heq⟩
        rw [getElem?_eraseAll] at he
        by_cases hleft : key ∈ leaving
        · rw [if_pos hleft] at he
          exact absurd he (by simp only [reduceCtorEq, not_false_eq_true])
        · rw [if_neg hleft] at he
          rw [mem_eraseAll_iff, not_and_not_right] at hgone
          rw [List.mem_append]
          by_cases hstill : parent ∈ elements
          · -- The parent leaves in this visit, and so it joins.
            exact Or.inl ((hjoining.trans hleaving.symm).mem_iff.2 (hgone hstill))
          · rcases List.mem_cons.1 (h.parent_waits key parent ⟨e, he, heq⟩ hstill hunder) with
              hfirst | hrest
            · -- The parent is visited, so the element would have left.
              rw [hfirst] at heq
              exact absurd (hleaving.mem_iff.2 (mem_childrenOf.2 ⟨e, he, heq⟩)) hleft
            · exact Or.inr hrest

theorem searching_search (before : Elements) (node : NodeKey) (state : Elements × List NodeKey)
    (h : Relation.ReflTransGen SearchStep (before.erase node, [node]) state) :
    Searching before node state := by
  induction h with
  | refl => exact searching_start before node
  | tail _ hstep ih => exact searching_step before node _ _ hstep ih

/-- When nothing waits, everything under the node is gone. The induction goes down
    a chain of parents, from the node. -/
theorem gone_of_under (before : Elements) (node : NodeKey) (elements : Elements)
    (h : Searching before node (elements, [])) (key : NodeKey) (hunder : before.Under node key) :
    key ∉ elements := by
  induction hunder using Relation.ReflTransGen.head_induction_on with
  | refl => exact h.node_gone
  | head hparent hrest ih =>
      intro hmem
      rcases hparent with ⟨e, he, heq⟩
      rcases (mem_iff_exists elements _).1 hmem with ⟨other, hother⟩
      have hsame : other = e := Option.some.inj ((h.kept _ other hother).symm.trans he)
      rw [hsame] at hother
      exact List.not_mem_nil (h.parent_waits _ _ ⟨e, hother, heq⟩ ih hrest)

/-- What is left when nothing waits: the elements that do not lie under the node, as
    they were. -/
theorem getElem?_of_searching_nil (before : Elements) (node : NodeKey) (elements : Elements)
    (h : Searching before node (elements, [])) (key : NodeKey) (e : Element) :
    elements[key]? = some e ↔ before[key]? = some e ∧ ¬ before.Under node key := by
  constructor
  · intro he
    refine ⟨h.kept key e he, fun hunder => ?_⟩
    exact gone_of_under before node elements h key hunder ((mem_iff_exists elements key).2 ⟨e, he⟩)
  · intro hand
    have hmem : key ∈ elements := by
      by_contra hgone
      exact hand.2 (h.under_of_gone key ((mem_iff_exists before key).2 ⟨e, hand.1⟩) hgone)
    rcases (mem_iff_exists elements key).1 hmem with ⟨other, hother⟩
    have hsame : other = e := Option.some.inj ((h.kept key other hother).symm.trans hand.1)
    rw [hother, hsame]

/-- Forgetting is one of the searches. -/
theorem search_forget (elements : Elements) (node : NodeKey) :
    Relation.ReflTransGen SearchStep (elements.erase node, [node]) (elements.forget node, []) := by
  have hbelow : ∀ queue (known : Elements),
      Relation.ReflTransGen SearchStep (known, queue) (known.forgetBelow queue, []) := by
    intro queue known
    fun_induction forgetBelow known queue with
    | case1 known => exact Relation.ReflTransGen.refl
    | case2 known first rest ih =>
        exact Relation.ReflTransGen.head
          (.visit known first rest _ _ (List.Perm.refl _) (List.Perm.refl _)) ih
  exact hbelow [node] (elements.erase node)

/-- What forgetting leaves, and that it leaves it as it was. -/
theorem getElem?_forget_eq_some_iff (elements : Elements) (node key : NodeKey) (e : Element) :
    (elements.forget node)[key]? = some e ↔ elements[key]? = some e ∧ ¬ elements.Under node key :=
  getElem?_of_searching_nil elements node _
    (searching_search elements node _ (search_forget elements node)) key e

/-- Which elements forgetting leaves. -/
theorem mem_forget_iff (elements : Elements) (node key : NodeKey) :
    key ∈ elements.forget node ↔ key ∈ elements ∧ ¬ elements.Under node key := by
  rw [mem_iff_exists, mem_iff_exists]
  simp only [getElem?_forget_eq_some_iff, exists_and_right]

/-- Whether an element lies under a node can be found out by forgetting the node. -/
instance (elements : Elements) (node key : NodeKey) : Decidable (elements.Under node key) :=
  decidable_of_iff (key = node ∨ (key ∈ elements ∧ key ∉ elements.forget node)) (by
    rw [mem_forget_iff, not_and_not_right]
    constructor
    · intro hor
      rcases hor with heq | hand
      · rw [heq]
        exact Relation.ReflTransGen.refl
      · exact hand.2 hand.1
    · intro hunder
      rcases Relation.ReflTransGen.cases_head hunder with heq | ⟨above, habove, _⟩
      · exact Or.inl heq
      · exact Or.inr ⟨mem_of_hasParent elements key above habove, fun _ => hunder⟩)

-- Two elements that are each other's parent lie under one another.
example :
    let pair : Elements := (({} : Elements).insert ⟨1⟩ { parent := some ⟨2⟩ }).insert ⟨2⟩
      { parent := some ⟨1⟩ }
    pair.Under ⟨1⟩ ⟨2⟩ ∧ pair.Under ⟨2⟩ ⟨1⟩ ∧ ¬ pair.Under ⟨3⟩ ⟨1⟩ := by decide +kernel

theorem getElem?_forget (elements : Elements) (node key : NodeKey) :
    (elements.forget node)[key]? = if elements.Under node key then none else elements[key]? := by
  refine Option.ext (fun e => ?_)
  rw [getElem?_forget_eq_some_iff]
  by_cases h : elements.Under node key
  · rw [if_pos h]
    simp only [h, not_true_eq_false, and_false, reduceCtorEq]
  · rw [if_neg h]
    simp only [h, not_false_eq_true, and_true]

end Elements

namespace Tracker

open Elements

variable {σ : Type} [Stylesheet σ]

/-- Taking out a node leaves, as they were, the elements from which no chain of
    parents leads to it, and it touches neither the sheet nor the writes. Every
    search for the others ends, whatever the order in which children are met, and
    each leaves the same elements; the tracker's own is one of them. -/
theorem removal_exact (t : Tracker σ) (node : NodeKey) :
    let after := (t.follow (.removeNode node)).value
    let start := (t.elements.erase node, [node])
    (∀ key, key ∈ after.elements ↔
      key ∈ t.elements ∧ key ≠ node ∧ ¬ Relation.TransGen t.elements.HasParent key node) ∧
    (∀ key ∈ after.elements, after.elements[key]? = t.elements[key]?) ∧
    after.synthesizer = t.synthesizer ∧ after.outgoing = t.outgoing ∧
    WellFounded (fun next state => SearchStep state next) ∧
    Relation.ReflTransGen SearchStep start (after.elements, []) ∧
    ∀ state, Relation.ReflTransGen SearchStep start state → (∀ next, ¬ SearchStep state next) →
      ∀ key : NodeKey, state.1[key]? = after.elements[key]? := by
  intro after start
  refine ⟨?_, ?_, rfl, rfl, wellFounded_searchStep, search_forget t.elements node, ?_⟩
  · intro key
    have hunder : t.elements.Under node key ↔
        node = key ∨ Relation.TransGen t.elements.HasParent key node :=
      Relation.reflTransGen_iff_eq_or_transGen
    have hmem := mem_forget_iff t.elements node key
    rw [hunder, not_or, eq_comm (a := node)] at hmem
    exact hmem
  · intro key hkey
    rcases (mem_iff_exists after.elements key).1 hkey with ⟨e, he⟩
    rw [he, getElem?_of_forget t.elements node key e he]
  · intro state hsearch hstuck key
    -- A search stops only with nothing left to look at, and then its invariant says it all.
    have hnil := queue_nil_of_stuck state hstuck
    have hdone := searching_search t.elements node state hsearch
    rcases state with ⟨elements, queue⟩
    dsimp only at hnil
    subst hnil
    refine Option.ext (fun e => ?_)
    rw [getElem?_of_searching_nil t.elements node elements hdone key e]
    exact (getElem?_forget_eq_some_iff t.elements node key e).symm

end Tracker

end AtomicCss
