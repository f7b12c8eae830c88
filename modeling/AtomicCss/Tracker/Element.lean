import AtomicCss.Document.NodeKey

/-!
# Tracked Elements

What is remembered about the elements of a document.

An element is remembered from its insertion, or from the first time its class is
reported, until it is taken out. Taking out a node takes out everything below it,
and nobody lists what that is, so it is found through the parents: the elements
whose parent was just forgotten go next, until a round finds none.

Nothing is assumed about the parents. They may never have been tracked, and a
careless host may even make two elements each other's parent. The search ends all
the same, because each element it meets is forgotten before it is looked at.

## Main definitions

* `Element`: What is remembered about one element.
* `Elements`: All of them, by key.
* `Elements.childrenOf`: The tracked elements under a node.
* `Elements.forget`: Forgetting a node and what is below it.

## Theorems

* `Elements.size_eraseAll`: Forgetting distinct tracked elements makes room for
  as many.
-/

namespace AtomicCss

/-- What is remembered about one element: its parent if its insertion was seen, the
    class attribute it has, and the attribute that was written to it and whose
    report has not come back yet. -/
structure Element where
  parent : Option NodeKey := none
  attr : Option String := none
  awaited : Option String := none
  deriving DecidableEq, Repr, Inhabited

/-- The tracked elements, by key. -/
abbrev Elements := Std.TreeMap NodeKey Element

namespace Elements

/-- The tracked elements whose parent is the given node. -/
def childrenOf (elements : Elements) (node : NodeKey) : List NodeKey :=
  (elements.toList.filter fun entry => entry.2.parent == some node).map (·.1)

/-- The elements without those with the given keys. -/
def eraseAll (elements : Elements) : List NodeKey → Elements
  | [] => elements
  | key :: rest => eraseAll (elements.erase key) rest

theorem mem_childrenOf {elements : Elements} {node key : NodeKey} :
    key ∈ elements.childrenOf node ↔
      ∃ element, elements[key]? = some element ∧ element.parent = some node := by
  simp only [childrenOf, List.mem_map, List.mem_filter, beq_iff_eq, Prod.exists,
    exists_and_right, exists_eq_right, Std.TreeMap.mem_toList_iff_getElem?_eq_some]

theorem nodup_childrenOf (elements : Elements) (node : NodeKey) :
    (elements.childrenOf node).Nodup := by
  have hkeys := Std.TreeMap.distinct_keys_toList (t := elements)
  rw [childrenOf, List.Nodup, List.pairwise_map]
  refine (hkeys.filter _).imp fun h heq => ?_
  exact h (by rw [heq]; exact Std.ReflCmp.compare_self)

theorem size_eraseAll {elements : Elements} {keys : List NodeKey} (hnodup : keys.Nodup)
    (hmem : ∀ key ∈ keys, key ∈ elements) :
    (elements.eraseAll keys).size + keys.length = elements.size := by
  induction keys generalizing elements with
  | nil => rfl
  | cons key rest ih =>
    obtain ⟨hkey, hrest⟩ := List.nodup_cons.1 hnodup
    have hhere := hmem key List.mem_cons_self
    -- The keys are distinct, so the others are still there without this one.
    have hthere : ∀ other ∈ rest, other ∈ elements.erase key := fun other hother => by
      rw [Std.TreeMap.mem_erase]
      refine ⟨fun h => hkey ?_, hmem other (List.mem_cons_of_mem _ hother)⟩
      rwa [Std.LawfulEqCmp.eq_of_compare h]
    have hsize := Std.TreeMap.size_erase (t := elements) (k := key)
    rw [if_pos (Std.TreeMap.mem_iff_contains.1 hhere)] at hsize
    have hpos : elements.size ≠ 0 := fun h => by
      have hempty : elements.isEmpty = true := by
        rw [Std.TreeMap.isEmpty_eq_size_eq_zero, h]
        rfl
      exact Std.TreeMap.isEmpty_iff_forall_not_mem.1 hempty key hhere
    rw [eraseAll, List.length_cons]
    have := ih hrest hthere
    omega

/-- The elements without those below the given nodes, which are forgotten
    already. -/
def forgetBelow (elements : Elements) : List NodeKey → Elements
  | [] => elements
  | node :: rest =>
    forgetBelow (elements.eraseAll (elements.childrenOf node)) (elements.childrenOf node ++ rest)
termination_by queue => elements.size + queue.length
decreasing_by
  -- Each child leaves the elements and joins the queue, and the node leaves the queue.
  have := size_eraseAll (nodup_childrenOf elements node) fun key hkey => by
    obtain ⟨element, hget, _⟩ := mem_childrenOf.1 hkey
    exact Std.TreeMap.mem_iff_isSome_getElem?.2 (by rw [hget]; rfl)
  simp only [List.length_append, List.length_cons]
  omega

/-- The elements without a node and what is below it. -/
def forget (elements : Elements) (node : NodeKey) : Elements :=
  forgetBelow (elements.erase node) [node]

end Elements

end AtomicCss
