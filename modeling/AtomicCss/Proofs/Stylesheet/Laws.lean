import AtomicCss.Proofs.Synthesis.Compile
import AtomicCss.Stylesheet.StyleElement
import AtomicCss.Tracker

/-!
# Laws of Stylesheets

What may be relied on of a stylesheet, whatever kind it is.

`Stylesheet` gives two operations and promises nothing about them. Most of what
is said about a tracker does not depend on where its rules go, but it does depend
on three things that both kinds of sheet do. A rule that is added leaves a trace,
so a sheet that is as it was has taken no rule. Changes that were handed out are
not handed out again. And the changes that a sheet makes to a document are about
itself: it puts its own nodes in, and neither takes a node out nor writes a class
attribute.

The last law is not true of every value of a sheet's type, since a list of
waiting changes could hold anything. It is true of every value that the
operations produce, and `Sound` names those.

## Main definitions

* `Update.IsSilent`: An update that changes no class attribute and removes nothing.
* `LawfulStylesheet`: The laws.

## Theorems

* `sound_appendAll`: Adding rules keeps a sheet sound.
* `size_appendAll`: Each rule leaves a trace.
* `MemorySheet.rules_appendAll`: A sheet in memory keeps the rules as a list.
* `StyleElement.ensureNode_of_some`, `StyleElement.ensureNode_of_none`: The element of a sheet.
* `StyleElement.sound_new`: A new sheet in a document is sound.
-/

namespace AtomicCss

open Text

/-- An update that writes no class attribute and takes nothing out. -/
def Update.IsSilent : Update → Prop
  | .setAttr _ name _ => sameCaseless name classAttribute = false
  | .removeNode _ => False
  | .insertElement _ _ _ _ | .insertText _ _ _ _ | .endOfDocument => True

/-- What may be relied on of a stylesheet. -/
class LawfulStylesheet (σ : Type) [Stylesheet σ] where
  /-- The states that the operations lead to. -/
  Sound : σ → Prop
  /-- A measure of the rules that were added since the last time the changes were
      handed out. -/
  size : σ → Nat
  sound_append : ∀ sheet rule, Sound sheet → Sound (Stylesheet.append sheet rule).value
  sound_drain : ∀ sheet, Sound sheet → Sound (Stylesheet.drain sheet).2
  size_append : ∀ sheet rule, size sheet < size (Stylesheet.append sheet rule).value
  drain_drain : ∀ sheet : σ, (Stylesheet.drain (Stylesheet.drain sheet).2).1 = []
  isSilent_drain : ∀ sheet, Sound sheet → ∀ u ∈ (Stylesheet.drain sheet).1, u.IsSilent

namespace LawfulStylesheet

variable {σ : Type} [Stylesheet σ] [LawfulStylesheet σ]

theorem sound_appendAll (sheet : σ) (rules : List String) (h : Sound sheet) :
    Sound (Stylesheet.appendAll sheet rules) := by
  induction rules generalizing sheet with
  | nil => exact h
  | cons rule rest ih => exact ih _ (sound_append sheet rule h)

/-- Each rule leaves a trace. -/
theorem size_appendAll (sheet : σ) (rules : List String) :
    size sheet + rules.length ≤ size (Stylesheet.appendAll sheet rules) := by
  induction rules generalizing sheet with
  | nil => exact Nat.le_refl _
  | cons rule rest ih =>
      have hrest := ih (Stylesheet.append sheet rule).value
      have hfirst := size_append sheet rule
      rw [List.length_cons]
      exact Nat.le_trans (by omega) hrest

end LawfulStylesheet

theorem MemorySheet.rules_appendAll (sheet : MemorySheet) (rules : List String) :
    (Stylesheet.appendAll sheet rules).rules = sheet.rules ++ rules.toArray := by
  induction rules generalizing sheet with
  | nil => exact Array.append_empty.symm
  | cons rule rest ih =>
      have hrest := ih (Stylesheet.append sheet rule).value
      rw [MemorySheet.rules_append] at hrest
      rw [List.toArray_cons, ← Array.append_assoc, ← Array.push_eq_append]
      exact hrest

/-- A sheet in memory has nothing to say to a document. -/
instance : LawfulStylesheet MemorySheet where
  Sound _ := True
  size sheet := sheet.rules.size
  sound_append _ _ _ := trivial
  sound_drain _ _ := trivial
  size_append sheet rule := by
    rw [MemorySheet.rules_append, Array.size_push]
    exact Nat.lt_succ_self _
  drain_drain _ := rfl
  isSilent_drain _ _ u hu := absurd hu List.not_mem_nil

namespace StyleElement

theorem isSilent_creation (sheet : StyleElement) (node : NodeKey) :
    ∀ u ∈ sheet.creation node, u.IsSilent := by
  intro u hu
  rw [creation, List.mem_cons, List.mem_singleton] at hu
  rcases hu with rfl | rfl
  · trivial
  · exact (by decide : sameCaseless "id" classAttribute = false)

/-- An element that is there is not made again. -/
theorem ensureNode_of_some (sheet : StyleElement) (node : NodeKey) (h : sheet.node = some node) :
    sheet.ensureNode = pure (node, sheet) := by
  unfold ensureNode
  rw [h]

/-- One that is not there gets the key of number zero, and its creation waits. -/
theorem ensureNode_of_none (sheet : StyleElement) (h : sheet.node = none) :
    sheet.ensureNode.value = ((sheet.keys.keyOf 0).1, { sheet with
      keys := (sheet.keys.keyOf 0).2
      node := some (sheet.keys.keyOf 0).1
      pending := sheet.pending ++ sheet.creation (sheet.keys.keyOf 0).1 }) := by
  unfold ensureNode
  rw [h]
  rfl

/-- In either case it is there afterwards. -/
theorem node_ensureNode (sheet : StyleElement) :
    sheet.ensureNode.value.2.node = some sheet.ensureNode.value.1 := by
  cases hnode : sheet.node with
  | some node =>
      rw [sheet.ensureNode_of_some node hnode]
      exact hnode
  | none => rw [sheet.ensureNode_of_none hnode]

theorem value_append (sheet : StyleElement) (rule : String) :
    (Stylesheet.append sheet rule).value =
      sheet.ensureNode.value.2.appendText sheet.ensureNode.value.1 rule := rfl

/-- Making the element adds to what waits, if anything, its creation. -/
theorem pending_ensureNode (sheet : StyleElement) :
    ∃ made, (∀ u ∈ made, u.IsSilent) ∧
      sheet.ensureNode.value.2.pending = sheet.pending ++ made := by
  cases hnode : sheet.node with
  | some node =>
      refine ⟨[], fun u hu => absurd hu List.not_mem_nil, ?_⟩
      rw [sheet.ensureNode_of_some node hnode, List.append_nil]
      rfl
  | none =>
      rw [sheet.ensureNode_of_none hnode]
      exact ⟨_, sheet.isSilent_creation _, rfl⟩

/-- Adding a rule adds to what waits, and never nothing: the text of the rule
    comes last. -/
theorem pending_append (sheet : StyleElement) (rule : String) :
    ∃ made, made ≠ [] ∧ (∀ u ∈ made, u.IsSilent) ∧
      (Stylesheet.append sheet rule).value.pending = sheet.pending ++ made := by
  rcases sheet.pending_ensureNode with ⟨made, hmade, hpending⟩
  -- The text node is added in any case, whether the element was made for it or not.
  have htext : (Stylesheet.append sheet rule).value.pending
      = sheet.ensureNode.value.2.pending ++ [.insertText _ _ rule _] := rfl
  rw [hpending, List.append_assoc] at htext
  refine ⟨made ++ _, List.append_ne_nil_of_right_ne_nil _ (List.cons_ne_nil _ _), ?_, htext⟩
  intro u hu
  rw [List.mem_append, List.mem_singleton] at hu
  rcases hu with hold | rfl
  · exact hmade u hold
  · trivial

end StyleElement

/-- A sheet in a document speaks of its own nodes only. -/
instance : LawfulStylesheet StyleElement where
  Sound sheet := ∀ u ∈ sheet.pending, u.IsSilent
  size sheet := sheet.pending.length
  sound_append sheet rule h := by
    rcases sheet.pending_append rule with ⟨made, _, hmade, hpending⟩
    intro u hu
    rw [hpending, List.mem_append] at hu
    rcases hu with hold | hnew
    · exact h u hold
    · exact hmade u hnew
  sound_drain _ _ u hu := absurd hu List.not_mem_nil
  size_append sheet rule := by
    rcases sheet.pending_append rule with ⟨made, hsome, _, hpending⟩
    have hpos := List.length_pos_iff.2 hsome
    rw [hpending, List.length_append]
    omega
  drain_drain _ := rfl
  isSilent_drain _ h := h

/-- A new sheet in a document is sound: nothing waits. -/
theorem StyleElement.sound_new (space : KeySpace) (head : NodeKey) (pos : Nat) (config : Config) :
    LawfulStylesheet.Sound (StyleElement.new space head pos config).1 :=
  fun _ hu => absurd hu List.not_mem_nil

end AtomicCss
