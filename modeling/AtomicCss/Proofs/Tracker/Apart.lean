import AtomicCss.Proofs.Tracker.Moves
import AtomicCss.Proofs.Tracker.Recall

/-!
# Elements Apart

What the class attributes of other elements have to do with one element: nothing.

The elements of a tracker share a good deal. They are kept in one collection, and
a removal searches all of it for what lies below a node; their rules go to one
stylesheet, and their writes wait in one queue. News about one element touches
all three. It may even put an element into the collection that was never inserted
there, or one that was taken out before.

That none of it reaches another element is a statement about two histories. One
is any history, the other is what is left of it if only one element's attributes
are told of (`Call.forElement`): all insertions, removals and batches are still
there, and the news and the reports about others are not. The two trackers differ
more and more as the histories go on. What they keep in common is `AgreeOn`: the
two slots of the element, the writes to it that wait, and the parent of every
element, tracked or not. The parents are what carries the induction, because a
removal reads nothing else. News leaves them alone, also where it puts an element
into the collection, since that one has no parent there and is no step in any
chain.

## Main definitions

* `Elements.parentOf`: The parent under which an element is tracked.
* `Update.isWriteTo`: A write of one element's class attribute.
* `Call.forElement`: What is left of a call if only one element is told of.
* `Tracker.AgreeOn`: What two trackers have in common.
* `Tracker.glimpses`: What a history shows of an element.

## Theorems

* `parentOf_handle`: News leaves all parents alone.
* `agreeOn_handle`, `agreeOn_handle_other`: What news keeps in common.
* `agreeOn_move`, `agreeOn_move_other`: What moves keep in common.
* `agreeOn_moved`, `agreeOn_run`: So do rows of moves, and histories.
* `glimpse_forElement`: What one call shows.
* `run_forElement`: What a history leads to and shows.
-/

namespace AtomicCss

open Text

/-- The update writes the class attribute of the element. -/
def Update.isWriteTo (node : NodeKey) : Update → Bool
  | .setAttr other name _ => other = node ∧ name = classAttribute
  | .insertElement _ _ _ _ | .insertText _ _ _ _ | .removeNode _ | .endOfDocument => false

namespace Elements

/-- The parent under which an element is tracked. One that is not tracked has none. -/
def parentOf (elements : Elements) (key : NodeKey) : Option NodeKey :=
  elements[key]?.bind (·.parent)

theorem hasParent_iff (elements : Elements) (key parent : NodeKey) :
    elements.HasParent key parent ↔ elements.parentOf key = some parent :=
  Option.bind_eq_some_iff.symm

/-- What lies under a node depends on the parents alone. -/
theorem under_iff_of_parentOf_eq (elements others : Elements)
    (h : ∀ key, elements.parentOf key = others.parentOf key) (node key : NodeKey) :
    elements.Under node key ↔ others.Under node key := by
  have hsame : elements.HasParent = others.HasParent := by
    funext key parent
    rw [hasParent_iff, hasParent_iff, h key]
  rw [Under, Under, hsame]

theorem parentOf_insert (elements : Elements) (node key : NodeKey) (e : Element) :
    parentOf (elements.insert node e) key
      = if node = key then e.parent else elements.parentOf key := by
  rw [parentOf, getElem?_insert]
  split <;> rfl

/-- An element that is changed in place keeps its parent, if the change does. -/
theorem parentOf_insert_getD (elements : Elements) (node key : NodeKey) (e : Element)
    (h : e.parent = (elements.getD node {}).parent) :
    parentOf (elements.insert node e) key = elements.parentOf key := by
  rw [parentOf_insert]
  by_cases hnode : node = key
  · rw [if_pos hnode, h, Std.TreeMap.getD_eq_getD_getElem?, hnode, parentOf]
    cases elements[key]? <;> rfl
  · rw [if_neg hnode]

theorem parentOf_clear (elements : Elements) (node key : NodeKey) :
    parentOf (elements.modify node fun e => { e with awaited := none }) key
      = elements.parentOf key := by
  rw [parentOf, getElem?_modify]
  split
  · rw [parentOf]
    cases elements[key]? <;> rfl
  · rfl

theorem parentOf_forget (elements : Elements) (node key : NodeKey) :
    (elements.forget node).parentOf key
      = if elements.Under node key then none else elements.parentOf key := by
  rw [parentOf, getElem?_forget]
  split <;> rfl

end Elements

namespace Tracker

/-- What is left of a call if no other element's class attribute is told of. -/
def Call.forElement (node : NodeKey) : Call → List Call
  | .event e => if e.node = node then [.event e] else []
  | .update (.setAttr other name value) =>
    if sameCaseless name classAttribute = true ∧ other ≠ node then []
    else [.update (.setAttr other name value)]
  | .update u => [.update u]
  | .sweep elements => [.sweep (elements.filter fun entry => entry.1 = node)]
  | .take => [.take]

/-- The move is no news and no report of another element. -/
def Move.regards (node : NodeKey) : Move → Bool
  | .news event => event.node = node
  | .report other _ => other = node
  | .insert _ _ | .forget _ | .take => true

theorem moves_forElement (node : NodeKey) (call : Call) :
    (call.forElement node).flatMap Call.moves = call.moves.filter (Move.regards node) := by
  cases call with
  | event e =>
      by_cases h : e.node = node
      · simp only [Call.forElement, Call.moves, Move.regards, h, if_true, List.flatMap_singleton,
          decide_true, List.filter_cons_of_pos, List.filter_nil]
      · simp only [Call.forElement, Call.moves, Move.regards, h, if_false, List.flatMap_nil,
          decide_false, Bool.false_eq_true, not_false_eq_true, List.filter_cons_of_neg,
          List.filter_nil]
  | sweep elements =>
      -- A sweep is a row of news, and both sides leave out the same of them.
      rw [Call.forElement, List.flatMap_singleton, Call.moves, Call.moves, List.filter_map]
      rfl
  | take => rfl
  | update u =>
      cases u with
      | setAttr other name value =>
          rw [Call.forElement]
          by_cases hname : sameCaseless name classAttribute = true
          · by_cases hnode : other = node
            · simp only [Call.moves, Move.regards, hname, hnode, ne_eq, not_true_eq_false, and_false,
                if_false, if_true, List.flatMap_singleton, decide_true, List.filter_cons_of_pos,
                List.filter_nil]
            · simp only [Call.moves, Move.regards, hname, hnode, ne_eq, not_false_eq_true, and_self,
                if_true, List.flatMap_nil, decide_false, Bool.false_eq_true,
                List.filter_cons_of_neg, List.filter_nil]
          · simp only [Call.moves, hname, Bool.false_eq_true, false_and, if_false,
              List.flatMap_singleton, List.filter_nil]
      | insertElement | insertText | removeNode | endOfDocument => rfl

variable {σ : Type}

/-- Two trackers have the same to do with an element: its slots and the writes to it
    that wait are the same, whatever they hold of others. They also agree on how an
    attribute is compiled and on all parents, so that they go on agreeing. -/
structure AgreeOn (node : NodeKey) (t other : Tracker σ) : Prop where
  compiled_eq : t.compiled = other.compiled
  slots_eq : t.slots node = other.slots node
  parentOf_eq : ∀ key, t.elements.parentOf key = other.elements.parentOf key
  writes_eq : t.outgoing.filter (Update.isWriteTo node) =
    other.outgoing.filter (Update.isWriteTo node)

variable {node : NodeKey} {t other : Tracker σ}

theorem AgreeOn.refl (t : Tracker σ) : AgreeOn node t t :=
  ⟨rfl, rfl, fun _ => rfl, rfl⟩

theorem AgreeOn.under_iff (h : AgreeOn node t other) (above key : NodeKey) :
    t.elements.Under above key ↔ other.elements.Under above key :=
  Elements.under_iff_of_parentOf_eq _ _ h.parentOf_eq above key

theorem AgreeOn.classOf_eq (h : AgreeOn node t other) : t.classOf node = other.classOf node :=
  congrArg Prod.fst h.slots_eq

theorem AgreeOn.awaitedAt_eq (h : AgreeOn node t other) :
    t.awaitedAt node = other.awaitedAt node :=
  congrArg Prod.snd h.slots_eq

variable [Stylesheet σ]

/-- News leaves all parents alone. An element that it puts into the collection has
    none. -/
theorem parentOf_handle (t : Tracker σ) (event : ClassEvent) (key : NodeKey) :
    (t.handle event).value.2.elements.parentOf key = t.elements.parentOf key := by
  by_cases hutility : isUtility event.attr = true
  · rw [handle_of_utility t event hutility]
    exact Elements.parentOf_insert_getD t.elements event.node key _ rfl
  · rw [handle_of_plain t event (Bool.eq_false_iff.2 hutility)]
    exact Elements.parentOf_insert_getD t.elements event.node key _ rfl

/-- The writes to an element that news lets wait. -/
theorem writes_handle (t : Tracker σ) (event : ClassEvent) (node : NodeKey) :
    (t.handle event).value.2.outgoing.filter (Update.isWriteTo node) =
      t.outgoing.filter (Update.isWriteTo node) ++
        if event.node = node ∧ isUtility event.attr = true ∧ t.compiled event.attr ≠ event.attr
        then [.setAttr event.node classAttribute (t.compiled event.attr)] else [] := by
  rw [outgoing_handle, List.filter_append, List.append_cancel_left_eq]
  by_cases hwritten : isUtility event.attr = true ∧ t.compiled event.attr ≠ event.attr
  · by_cases hnode : event.node = node
    · rw [if_pos hwritten, if_pos ⟨hnode, hwritten⟩]
      exact List.filter_cons_of_pos (decide_eq_true ⟨hnode, rfl⟩)
    · rw [if_pos hwritten, if_neg (fun hand => hnode hand.1)]
      exact List.filter_cons_of_neg (fun htrue => hnode (of_decide_eq_true htrue).1)
  · rw [if_neg hwritten, if_neg (fun hand => hwritten hand.2), List.filter_nil]

/-- The same news about an element keeps two trackers in agreement on it. What the
    news is called does not matter. -/
theorem agreeOn_handle (h : AgreeOn node t other) (event event' : ClassEvent)
    (hnode : event.node = event'.node) (hattr : event.attr = event'.attr) :
    AgreeOn node (t.handle event).value.2 (other.handle event').value.2 where
  compiled_eq := by
    rw [compiled_handle, compiled_handle, h.compiled_eq]
  slots_eq := by
    rw [slots_handle, slots_handle, h.compiled_eq, h.slots_eq, hnode, hattr]
  parentOf_eq key := by
    rw [parentOf_handle, parentOf_handle, h.parentOf_eq key]
  writes_eq := by
    rw [writes_handle, writes_handle, h.compiled_eq, h.writes_eq, hnode, hattr]

/-- News about another element keeps the agreement, though one side only hears it. -/
theorem agreeOn_handle_other (h : AgreeOn node t other) (event : ClassEvent)
    (hnode : event.node ≠ node) : AgreeOn node (t.handle event).value.2 other where
  compiled_eq := (compiled_handle t event).trans h.compiled_eq
  slots_eq := by
    rw [slots_handle, if_neg hnode, h.slots_eq]
  parentOf_eq key := (parentOf_handle t event key).trans (h.parentOf_eq key)
  writes_eq := by
    rw [writes_handle, if_neg (fun hand => hnode hand.1), List.append_nil, h.writes_eq]

/-- The same report of an element keeps the agreement: both sides await it, or it is
    news to both. -/
theorem agreeOn_report (h : AgreeOn node t other) (attr : String) :
    AgreeOn node (t.report node attr).value (other.report node attr).value := by
  by_cases hecho : t.awaitedAt node = some attr
  · have hecho' := hecho
    rw [h.awaitedAt_eq] at hecho'
    rw [report_of_isEcho t node attr hecho, report_of_isEcho other node attr hecho']
    refine ⟨h.compiled_eq, ?_, fun key => ?_, h.writes_eq⟩
    · rw [slots_clear, slots_clear, if_pos rfl, if_pos rfl, h.classOf_eq]
    · rw [Elements.parentOf_clear, Elements.parentOf_clear, h.parentOf_eq key]
  · have hnews := hecho
    rw [h.awaitedAt_eq] at hnews
    rw [report_of_not_isEcho t node attr hecho, report_of_not_isEcho other node attr hnews]
    exact agreeOn_handle h _ _ ((t.newsOf_node node attr).trans (other.newsOf_node node attr).symm)
      ((t.newsOf_attr node attr).trans (other.newsOf_attr node attr).symm)

/-- A report of another element keeps the agreement, though one side only hears it. -/
theorem agreeOn_report_other (h : AgreeOn node t other) (reported : NodeKey) (attr : String)
    (hnode : reported ≠ node) : AgreeOn node (t.report reported attr).value other := by
  by_cases hecho : t.awaitedAt reported = some attr
  · rw [report_of_isEcho t reported attr hecho]
    refine ⟨h.compiled_eq, ?_, fun key => ?_, h.writes_eq⟩
    · rw [slots_clear, if_neg hnode, h.slots_eq]
    · rw [Elements.parentOf_clear, h.parentOf_eq key]
  · rw [report_of_not_isEcho t reported attr hecho]
    exact agreeOn_handle_other h _ (by rw [newsOf_node]; exact hnode)

/-- A move that both sides make keeps the agreement, if it is no news of another
    element. For a removal this rests on the parents: they tell what goes with the
    node, and both sides have the same. -/
theorem agreeOn_move (h : AgreeOn node t other) (m : Move) (hregards : m.regards node = true) :
    AgreeOn node (t.move m) (other.move m) := by
  cases m with
  | news event => exact agreeOn_handle h event event rfl rfl
  | report reported attr =>
      rw [show reported = node from of_decide_eq_true hregards]
      exact agreeOn_report h attr
  | insert parent inserted =>
      refine ⟨h.compiled_eq, ?_, fun key => ?_, h.writes_eq⟩
      · rw [move, move, slots_insert, slots_insert, h.slots_eq]
      · rw [move, move, Elements.parentOf_insert, Elements.parentOf_insert, h.parentOf_eq key]
  | forget removed =>
      refine ⟨h.compiled_eq, ?_, fun key => ?_, h.writes_eq⟩
      · rw [move, move, slots_forget, slots_forget, h.slots_eq]
        simp only [h.under_iff removed node]
      · rw [move, move, Elements.parentOf_forget, Elements.parentOf_forget, h.parentOf_eq key]
        simp only [h.under_iff removed key]
  | take => exact ⟨h.compiled_eq, h.slots_eq, h.parentOf_eq, rfl⟩

/-- News of another element keeps the agreement, though one side only hears it. -/
theorem agreeOn_move_other (h : AgreeOn node t other) (m : Move)
    (hregards : ¬ m.regards node = true) : AgreeOn node (t.move m) other := by
  cases m with
  | news event => exact agreeOn_handle_other h event (fun heq => hregards (decide_eq_true heq))
  | report reported attr =>
      exact agreeOn_report_other h reported attr (fun heq => hregards (decide_eq_true heq))
  | insert | forget | take => exact absurd rfl hregards

/-- A row of moves and what is left of it. -/
theorem agreeOn_moved (h : AgreeOn node t other) (moves : List Move) :
    AgreeOn node (t.moved moves) (other.moved (moves.filter (Move.regards node))) := by
  induction moves generalizing t other with
  | nil => exact h
  | cons m rest ih =>
      by_cases hregards : m.regards node = true
      · rw [List.filter_cons_of_pos hregards]
        exact ih (agreeOn_move h m hregards)
      · rw [List.filter_cons_of_neg hregards]
        exact ih (agreeOn_move_other h m hregards)

/-- A history and what is left of it. -/
theorem agreeOn_run (h : AgreeOn node t other) (calls : List Call) :
    AgreeOn node (t.run calls).value.2
      (other.run (calls.flatMap (Call.forElement node))).value.2 := by
  have hmoves : (calls.flatMap (Call.forElement node)).flatMap Call.moves
      = (calls.flatMap Call.moves).filter (Move.regards node) := by
    simp only [List.flatMap_assoc, List.filter_flatMap, moves_forElement]
  rw [moved_run, moved_run, hmoves]
  exact agreeOn_moved h _

/-- What one call shows of an element: what its news compiled to, and the writes to
    it in a batch, where they stand behind the changes of the stylesheet. -/
def glimpse (t : Tracker σ) (node : NodeKey) (call : Call) : List Reply :=
  match call, (t.perform call).value.1 with
  | .event e, .compiled attr => if e.node = node then [.compiled attr] else []
  | .take, .taken batch =>
    [.taken ((batch.drop (Stylesheet.drain t.sheet).1.length).filter (Update.isWriteTo node))]
  | _, _ => []

/-- What a history shows of an element. -/
def glimpses (t : Tracker σ) (node : NodeKey) : List Call → List Reply
  | [] => []
  | call :: rest => t.glimpse node call ++ (t.perform call).value.2.glimpses node rest

theorem glimpses_append (t : Tracker σ) (node : NodeKey) (calls more : List Call) :
    t.glimpses node (calls ++ more) =
      t.glimpses node calls ++ (t.run calls).value.2.glimpses node more := by
  induction calls generalizing t with
  | nil => rfl
  | cons call rest ih =>
      rw [List.cons_append, glimpses, ih, ← List.append_assoc]
      rfl

theorem glimpse_take (t : Tracker σ) (node : NodeKey) :
    t.glimpse node .take = [.taken (t.outgoing.filter (Update.isWriteTo node))] := by
  change [Reply.taken ((t.takeOutgoing.1.drop (Stylesheet.drain t.sheet).1.length).filter
    (Update.isWriteTo node))] = _
  rw [takeOutgoing, List.drop_left]

/-- What one call shows of an element is shown by what is left of the call. -/
theorem glimpse_forElement (h : AgreeOn node t other) (call : Call) :
    t.glimpse node call = other.glimpses node (call.forElement node) := by
  cases call with
  | event e =>
      have hanswer : (t.handle e).value.1 = (other.handle e).value.1 := by
        rw [value_handle, value_handle, h.compiled_eq]
      change (if e.node = node then [Reply.compiled (t.handle e).value.1] else []) = _
      rw [Call.forElement, hanswer]
      by_cases hnode : e.node = node
      · rw [if_pos hnode, if_pos hnode, glimpses, glimpses, List.append_nil]
        exact (if_pos hnode).symm
      · rw [if_neg hnode, if_neg hnode, glimpses]
  | take =>
      rw [Call.forElement, glimpses, glimpses, glimpse_take, glimpse_take, h.writes_eq]
      rfl
  | sweep elements => rfl
  | update u =>
      cases u with
      | setAttr reported name value =>
          rw [Call.forElement]
          split <;> rfl
      | insertElement | insertText | removeNode | endOfDocument => rfl

/-- Leaving all news and reports of other elements out of a history changes nothing
    about an element: neither the attribute that is remembered of it, at any point,
    nor what its news is answered, nor which writes to it are in a batch. -/
theorem run_forElement (t : Tracker σ) (node : NodeKey) (calls : List Call) :
    (∀ i, (t.run (calls.take i)).value.2.classOf node =
      (t.run ((calls.take i).flatMap (Call.forElement node))).value.2.classOf node) ∧
    t.glimpses node calls = t.glimpses node (calls.flatMap (Call.forElement node)) := by
  refine ⟨fun i => (agreeOn_run (AgreeOn.refl t) (calls.take i)).classOf_eq, ?_⟩
  have hglimpses : ∀ s other : Tracker σ, AgreeOn node s other →
      s.glimpses node calls = other.glimpses node (calls.flatMap (Call.forElement node)) := by
    intro s other h
    induction calls generalizing s other with
    | nil => rfl
    | cons call rest ih =>
        -- The two agree behind the call as well, whatever is left of it.
        have hafter := agreeOn_run h [call]
        rw [List.flatMap_singleton] at hafter
        rw [List.flatMap_cons, glimpses_append, glimpses, glimpse_forElement h call]
        exact congrArg _ (ih _ _ hafter)
  exact hglimpses t t (AgreeOn.refl t)

-- Both elements write into one queue, and only the write to the first is shown.
example : (new ({} : MemorySheet) {}).glimpses ⟨1⟩
    [.event (.changed ⟨1⟩ "hover:color_red"), .event (.changed ⟨2⟩ "hover:color_red"), .take]
      = [.compiled (some "color_red"), .taken [.setAttr ⟨1⟩ classAttribute "color_red"]] := by
  decide +kernel

end Tracker

end AtomicCss
