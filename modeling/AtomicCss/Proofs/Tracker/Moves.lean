import AtomicCss.Proofs.Tracker.Removal
import AtomicCss.Proofs.Tracker.Reports

/-!
# Moves of a Tracker

A history as a row of moves, and what one move does to the slots.

A call may do much or little. A sweep tells of many elements, each with a write of
its own, and most updates of a document do nothing at all. What happens when, and
to which element, is better said of moves: news, a report, an element that starts
anew, a node that is taken out, a batch that is taken. Which moves a call is made
of does not depend on the tracker (`Call.moves`), so the moves of a history are
known before it begins, and a place in the history is a number (`before`).

Of one move three things matter here. It may let a write wait (`Writes`), it may
let a report pass (`Passes`), and it may concern an element (`Concerns`). All of
them are read off the tracker before and after the move. A write fills the slot of
its element, and a move that does not concern an element leaves the slot alone. So
a slot that is filled after a move was filled by a write in this very move, or it
was filled before, and then nothing was written for the element and no report of
it was let pass (`awaitedAt_of_move`).

## Main definitions

* `Tracker.Move`, `Tracker.move`: A move, and the tracker after it.
* `Tracker.Call.moves`: The moves of a call.
* `Tracker.before`: The tracker in front of a move.
* `Tracker.Writes`, `Tracker.Passes`, `Tracker.Concerns`: What a move does.

## Theorems

* `moved_run`: A history is the row of its moves.
* `writes_iff`: Only compiled news writes.
* `awaitedAt_of_writes`, `awaitedAt_of_not_concerns`, `awaitedAt_of_move`: What a move
  does to a slot.
-/

namespace AtomicCss

open Text

namespace Tracker

/-- One of the things that can happen to a tracker. -/
inductive Move
  | news (event : ClassEvent)
  | report (node : NodeKey) (attr : String)
  | insert (parent node : NodeKey)
  | forget (node : NodeKey)
  | take
  deriving DecidableEq, Repr

/-- The moves that a call is made of. -/
def Call.moves : Call → List Move
  | .event e => [.news e]
  | .update (.insertElement parent node _ _) => [.insert parent node]
  | .update (.setAttr node name value) =>
    if sameCaseless name classAttribute then [.report node value] else []
  | .update (.removeNode node) => [.forget node]
  | .update (.insertText _ _ _ _) | .update .endOfDocument => []
  | .sweep elements => elements.map fun entry => .news (.added entry.1 entry.2)
  | .take => [.take]

variable {σ : Type}

/-- The move tells of an element, or the element starts anew in it or is taken out,
    be it with a node that it lies under. -/
def Concerns (t : Tracker σ) (m : Move) (node : NodeKey) : Prop :=
  match m with
  | .news event => event.node = node
  | .report other _ => other = node
  | .insert _ other => other = node
  | .forget other => t.elements.Under other node
  | .take => False

instance (t : Tracker σ) (m : Move) (node : NodeKey) : Decidable (t.Concerns m node) :=
  match m with
  | .news event => inferInstanceAs (Decidable (event.node = node))
  | .report other _ => inferInstanceAs (Decidable (other = node))
  | .insert _ other => inferInstanceAs (Decidable (other = node))
  | .forget other => inferInstanceAs (Decidable (t.elements.Under other node))
  | .take => inferInstanceAs (Decidable False)

/-- The news in a move. A report is news unless it is let pass. -/
def newsIn (t : Tracker σ) : Move → Option ClassEvent
  | .news event => some event
  | .report node attr => if t.isEcho node attr then none else some (t.newsOf node attr)
  | .insert _ _ | .forget _ | .take => none

theorem newsIn_report_eq_none_iff (t : Tracker σ) (node : NodeKey) (attr : String) :
    t.newsIn (.report node attr) = none ↔ t.awaitedAt node = some attr := by
  rw [newsIn, ← isEcho_iff]
  by_cases hecho : t.isEcho node attr = true
  · rw [if_pos hecho]
    exact iff_of_true rfl hecho
  · rw [if_neg hecho]
    exact iff_of_false (by simp only [reduceCtorEq, not_false_eq_true]) hecho

variable [Stylesheet σ]

/-- The tracker after a move. -/
def move (t : Tracker σ) : Move → Tracker σ
  | .news event => (t.handle event).value.2
  | .report node attr => (t.report node attr).value
  | .insert parent node => { t with elements := t.elements.insert node { parent := some parent } }
  | .forget node => { t with elements := t.elements.forget node }
  | .take => t.takeOutgoing.2

/-- The tracker after a row of moves. -/
def moved (t : Tracker σ) (moves : List Move) : Tracker σ :=
  moves.foldl move t

/-- The tracker in front of a move, and at the end of the row behind the last one. -/
def before (t : Tracker σ) (moves : List Move) (i : Nat) : Tracker σ :=
  t.moved (moves.take i)

/-- The move lets a write wait. -/
def Writes (t : Tracker σ) (m : Move) (node : NodeKey) (value : String) : Prop :=
  (t.move m).outgoing = t.outgoing ++ [.setAttr node classAttribute value]

/-- The move is a report, and it is let pass. -/
def Passes (t : Tracker σ) (m : Move) (node : NodeKey) (value : String) : Prop :=
  m = .report node value ∧ t.isEcho node value = true

theorem moved_perform (t : Tracker σ) (call : Call) :
    (t.perform call).value.2 = t.moved call.moves := by
  cases call with
  | event e => rfl
  | take => rfl
  | sweep elements =>
      induction elements generalizing t with
      | nil => rfl
      | cons entry rest ih => exact ih (t.handle (.added entry.1 entry.2)).value.2
  | update u =>
      cases u with
      | setAttr node name value =>
          change (t.follow (.setAttr node name value)).value = _
          rw [follow, Call.moves]
          by_cases hname : sameCaseless name classAttribute = true
          · rw [if_pos hname, if_pos hname]
            rfl
          · rw [if_neg hname, if_neg hname]
            rfl
      | insertElement | insertText | removeNode | endOfDocument => rfl

/-- A history is the row of its moves. -/
theorem moved_run (t : Tracker σ) (calls : List Call) :
    (t.run calls).value.2 = t.moved (calls.flatMap Call.moves) := by
  induction calls generalizing t with
  | nil => rfl
  | cons call rest ih =>
      rw [List.flatMap_cons, moved, List.foldl_append]
      exact (ih (t.perform call).value.2).trans (by rw [moved_perform]; rfl)

/-- Behind a move stands the tracker that it leads to. -/
theorem before_succ (t : Tracker σ) (moves : List Move) (i : Nat) (m : Move)
    (h : moves[i]? = some m) : t.before moves (i + 1) = (t.before moves i).move m := by
  rw [before, List.take_add_one, h, moved, List.foldl_append]
  rfl

/-- Behind the last move nothing happens. -/
theorem before_succ_of_none (t : Tracker σ) (moves : List Move) (i : Nat)
    (h : moves[i]? = none) : t.before moves (i + 1) = t.before moves i := by
  rw [before, List.take_add_one, h, before]
  exact congrArg t.moved (List.append_nil _)

/-- A move with news leads where its news leads, and it concerns the element of the
    news and no other. -/
theorem move_of_news (t : Tracker σ) (m : Move) (event : ClassEvent)
    (h : t.newsIn m = some event) :
    t.move m = (t.handle event).value.2 ∧ ∀ node, t.Concerns m node ↔ event.node = node := by
  cases m with
  | news e =>
      cases Option.some.inj h
      exact ⟨rfl, fun node => Iff.rfl⟩
  | report other attr =>
      rw [newsIn, Option.ite_none_left_eq_some, isEcho_iff] at h
      have hevent : t.newsOf other attr = event := Option.some.inj h.2
      rw [move, report_of_not_isEcho t other attr h.1, hevent]
      refine ⟨rfl, fun node => ?_⟩
      rw [Concerns, ← hevent, newsOf_node]
  | insert | forget | take => exact absurd h (by simp only [newsIn, reduceCtorEq, not_false_eq_true])

/-- A move without news lets nothing wait. It empties the slots of those that it
    concerns, and no others. -/
theorem move_of_no_news (t : Tracker σ) (m : Move) (h : t.newsIn m = none) :
    (t.move m).outgoing.length ≤ t.outgoing.length ∧
      ∀ node, (t.move m).awaitedAt node = if t.Concerns m node then none else t.awaitedAt node := by
  cases m with
  | news e => exact absurd h (by simp only [newsIn, reduceCtorEq, not_false_eq_true])
  | report other attr =>
      rw [newsIn_report_eq_none_iff] at h
      rw [move, report_of_isEcho t other attr h]
      exact ⟨Nat.le_refl _, fun node => t.awaitedAt_clear other node⟩
  | insert parent other => exact ⟨Nat.le_refl _, fun node => t.awaitedAt_insert other node parent⟩
  | forget other =>
      refine ⟨Nat.le_refl _, fun node => ?_⟩
      have hforget := Elements.getElem?_forget t.elements other node
      rw [awaitedAt, move]
      by_cases hunder : t.elements.Under other node
      · rw [hforget, if_pos hunder, if_pos (show t.Concerns (.forget other) node from hunder)]
        rfl
      · rw [hforget, if_neg hunder, if_neg (show ¬ t.Concerns (.forget other) node from hunder)]
        rfl
  | take => exact ⟨Nat.zero_le _, fun node => rfl⟩

/-- Only compiled news writes, and it writes what the attribute compiles to, if that
    is another one. -/
theorem writes_iff (t : Tracker σ) (m : Move) (node : NodeKey) (value : String) :
    t.Writes m node value ↔
      ∃ event, t.newsIn m = some event ∧ isUtility event.attr = true ∧
        t.compiled event.attr ≠ event.attr ∧ event.node = node ∧ t.compiled event.attr = value := by
  rw [Writes]
  cases hnews : t.newsIn m with
  | none =>
      -- The queue would have grown by the write, and without news it does not grow.
      have hlength := (t.move_of_no_news m hnews).1
      constructor
      · intro h
        rw [h, List.length_append, List.length_singleton] at hlength
        omega
      · rintro ⟨event, hsome, _⟩
        exact absurd hsome (by simp only [reduceCtorEq, not_false_eq_true])
  | some event =>
      rw [(t.move_of_news m event hnews).1, outgoing_handle, List.append_cancel_left_eq]
      constructor
      · intro h
        by_cases hboth : isUtility event.attr = true ∧ t.compiled event.attr ≠ event.attr
        · rw [if_pos hboth, List.cons.injEq, Update.setAttr.injEq] at h
          exact ⟨event, rfl, hboth.1, hboth.2, h.1.1, h.1.2.2⟩
        · rw [if_neg hboth] at h
          exact absurd h.symm (List.cons_ne_nil _ _)
      · rintro ⟨other, hother, hutility, hne, hnode, hvalue⟩
        cases Option.some.inj hother
        rw [if_pos ⟨hutility, hne⟩, hnode, hvalue]

/-- A write fills the slot of its element. -/
theorem awaitedAt_of_writes (t : Tracker σ) (m : Move) (node : NodeKey) (value : String)
    (h : t.Writes m node value) : (t.move m).awaitedAt node = some value := by
  rcases (t.writes_iff m node value).1 h with ⟨event, hnews, hutility, hne, hnode, hvalue⟩
  rw [(t.move_of_news m event hnews).1, awaitedAt_handle, if_pos ⟨hnode, hutility⟩, if_neg hne,
    hvalue]

/-- A move leaves the slot of an element alone that it does not concern. -/
theorem awaitedAt_of_not_concerns (t : Tracker σ) (m : Move) (node : NodeKey)
    (h : ¬ t.Concerns m node) : (t.move m).awaitedAt node = t.awaitedAt node := by
  cases hnews : t.newsIn m with
  | none => rw [(t.move_of_no_news m hnews).2 node, if_neg h]
  | some event =>
      have hmove := t.move_of_news m event hnews
      rw [hmove.1, awaitedAt_handle, if_neg]
      exact fun hand => h ((hmove.2 node).2 hand.1)

/-- A report that is let pass empties the slot, and nothing else happens. -/
theorem move_of_passes (t : Tracker σ) (m : Move) (node : NodeKey) (value : String)
    (h : t.Passes m node value) :
    (t.move m).synthesizer = t.synthesizer ∧ (t.move m).outgoing = t.outgoing ∧
      (t.move m).awaitedAt node = none := by
  rcases h with ⟨rfl, hecho⟩
  rw [isEcho_iff] at hecho
  rw [move, report_of_isEcho t node value hecho, awaitedAt_clear, if_pos rfl]
  exact ⟨rfl, rfl, rfl⟩

/-- A slot that is filled after a move was filled by a write in this move, or it was
    filled before. In the second case nothing was written for the element, and no
    report of it was let pass. -/
theorem awaitedAt_of_move (t : Tracker σ) (m : Move) (node : NodeKey) (value : String)
    (h : (t.move m).awaitedAt node = some value) :
    t.Writes m node value ∨
      (t.awaitedAt node = some value ∧ ∀ other, ¬ t.Writes m node other ∧
        ¬ t.Passes m node other) := by
  by_cases hwrites : ∃ other, t.Writes m node other
  · rcases hwrites with ⟨other, hother⟩
    rw [t.awaitedAt_of_writes m node other hother, Option.some.injEq] at h
    rw [← h]
    exact Or.inl hother
  · refine Or.inr ⟨?_, fun other => ⟨fun hother => hwrites ⟨other, hother⟩, fun hpass => ?_⟩⟩
    · cases hnews : t.newsIn m with
      | none =>
          rw [(t.move_of_no_news m hnews).2 node, Option.ite_none_left_eq_some] at h
          exact h.2
      | some event =>
          rw [(t.move_of_news m event hnews).1, awaitedAt_handle] at h
          by_cases hboth : event.node = node ∧ isUtility event.attr = true
          · -- The slot was filled in this move, and that is what a write does.
            rw [if_pos hboth, Option.ite_none_left_eq_some] at h
            exact absurd ((t.writes_iff m node _).2
              ⟨event, hnews, hboth.2, h.1, hboth.1, rfl⟩) (fun hw => hwrites ⟨_, hw⟩)
          · rw [if_neg hboth] at h
            exact h
    · rw [(t.move_of_passes m node other hpass).2.2] at h
      exact absurd h (by simp only [reduceCtorEq, not_false_eq_true])

end Tracker

end AtomicCss
