import AtomicCss.Proofs.Stylesheet.Refinement
import AtomicCss.Proofs.Tracker.Batches

/-!
# The Stream of a Tracker

In which order a tracker with a sheet in a document tells what has to be done.

A sheet has a life before it is given to a tracker. It may have taken rules, and what it
had to tell may have been handed out already. From then on its changes leave in the
batches of the tracker, so its stream is all that was handed out before, and then the
batches one behind the other.

In each batch the changes of the sheet stand in front of the class attributes, and the
rules of all names in an attribute are among these changes, even if there was a text
with the same rule in an earlier batch. So a batch needs no other one for its rules.
It does need another one for the element that the texts are under. The element is made
once in the whole stream, in front of all texts, whoever handed it out.

Both are read off the phases of a tracker. A sheet that is alone goes through the same
phases, with no attributes waiting (`phase_sheet`).

## Main definitions

* `Update.IsOfSheet`: A change that a sheet makes.
* `Ordered`: A batch with its changes in front, and its rules among them.

## Theorems

* `phase_sheet`: The phases of a sheet that is alone.
* `ordered_of_batches`: Each batch is ordered.
* `element_of_batches`: The element is made once, in front of all texts.
* `rules_before_names`: Rules come with the names that need them.
-/

namespace AtomicCss

open Text

/-- A change that a sheet makes to its document: its element, the name of the element, or
    a text. -/
def Update.IsOfSheet : Update → Prop
  | .insertElement _ _ tag _ => tag = "style"
  | .setAttr _ name _ => name = "id"
  | .insertText _ _ _ _ => True
  | .removeNode _ | .endOfDocument => False

/-- The changes of the sheet stand in front, and behind them class attributes, each with a
    text for the rule of each of its names in front of it. -/
def Ordered (batch : List Update) : Prop :=
  ∃ changes writes, batch = changes ++ writes ∧ (∀ u ∈ changes, u.IsOfSheet) ∧
    ∀ u ∈ writes, ∃ node attr, u = .setAttr node classAttribute attr ∧
      ∀ name ∈ words attr, ∃ d : Directive, d.className = name ∧
        ∃ style key place, .insertText style key d.ruleText place ∈ changes

/-- Texts with their attributes are ordered, also behind more changes of the sheet. -/
theorem ordered_of_paired (style : NodeKey) (lead texts writes : List Update)
    (hlead : ∀ u ∈ lead, u.IsOfSheet) (h : Paired style texts writes) :
    Ordered (lead ++ (texts ++ writes)) := by
  refine ⟨lead ++ texts, writes, (List.append_assoc _ _ _).symm, ?_, ?_⟩
  · rw [List.forall_mem_append]
    refine ⟨hlead, fun u hu => ?_⟩
    rcases h.texts_under u hu with ⟨_, _, _, rfl⟩
    exact trivial
  · intro u hu
    rcases h.writes_named u hu with ⟨node, attr, hwrite, hnamed⟩
    refine ⟨node, attr, hwrite, fun name hname => ?_⟩
    rcases hnamed name hname with ⟨d, hd, key, place, hmem⟩
    exact ⟨d, hd, style, key, place, List.mem_append_right _ hmem⟩

theorem ordered_of_isBatch (style : NodeKey) (batch : List Update) (h : IsBatch style batch) :
    Ordered batch := by
  rcases h with ⟨texts, writes, rfl, hpaired⟩
  exact ordered_of_paired style [] texts writes (List.forall_mem_nil _) hpaired

theorem ordered_of_quiet (batch : List Update) (h : Quiet batch) : Ordered batch :=
  ordered_of_paired .root [] [] batch (List.forall_mem_nil _) ((quiet_iff .root batch).1 h)

theorem ordered_of_makes (style : NodeKey) (batch : List Update) (h : Makes style batch) :
    Ordered batch := by
  rcases h with ⟨lead, _, rfl, ⟨root, pos, id, rfl⟩, texts, writes, rfl, hpaired⟩
  refine ordered_of_paired style _ texts writes ?_ hpaired
  simp only [List.forall_mem_cons, Update.IsOfSheet, List.not_mem_nil, false_implies,
    implies_true, and_self]

/-- What does not occur in a piece at the front of a list comes behind it. -/
theorem prefix_of_not_mem {α : Type} (s t before after : List α) (a : α)
    (h : s ++ t = before ++ a :: after) (ha : a ∉ s) : s <+: before := by
  rcases List.append_eq_append_iff.1 h with ⟨more, hbefore, _⟩ | ⟨more, hs, hrest⟩
  · exact ⟨more, hbefore.symm⟩
  · cases more with
    | nil =>
        rw [List.append_nil] at hs
        exact ⟨[], (List.append_nil s).trans hs⟩
    | cons b more =>
        rw [List.cons_append, List.cons.injEq] at hrest
        refine absurd ?_ ha
        rw [hs, hrest.1]
        exact List.mem_append_right _ List.mem_cons_self

namespace Tracker

/-- A sheet that is alone goes through the phases of a tracker that is told nothing. Each
    time that it hands out what waits, that is one more batch. -/
theorem phase_sheet (config : Config) (told : List (List Update)) (sheet : StyleElement)
    (calls : List Stylesheet.Call) (h : Phase told (new sheet config)) :
    ∃ batches, Phase batches
        (new (calls.foldl Stylesheet.call (told.flatten, sheet)).2 config) ∧
      (calls.foldl Stylesheet.call (told.flatten, sheet)).1 = batches.flatten := by
  induction calls generalizing told sheet with
  | nil => exact ⟨told, h, rfl⟩
  | cons call rest ih =>
      cases call with
      | append rule =>
          exact ih told (Stylesheet.append sheet rule).value (h.grow told _ _ [rule] [] rfl rfl
            fun _ _ hspelled => ⟨hspelled.texts_under, List.forall_mem_nil _⟩)
      | drain =>
          -- No write waits in a tracker that is told nothing, so its batch is the sheet's.
          have hnext := ih _ (Stylesheet.drain sheet).2 (phase_take told _ h)
          have htold : (told ++ [(new sheet config).takeOutgoing.1]).flatten =
              told.flatten ++ (Stylesheet.drain sheet).1 := by
            rw [List.flatten_append, List.flatten_singleton]
            exact congrArg _ (List.append_nil _)
          rw [htold] at hnext
          exact hnext

/-- The batches of a history, those of the sheet's own life in front. -/
theorem phase_of_new (space : KeySpace) (head : NodeKey) (pos : Nat) (sheetConfig config : Config)
    (earlier : List Stylesheet.Call) (calls : List Call) :
    let fed := Stylesheet.run (StyleElement.new space head pos sheetConfig).1 earlier
    ∃ front, fed.1 = front.flatten ∧
      Phase (front ++ ((new fed.2 config).run calls).value.1.filterMap Reply.taken?)
        ((new fed.2 config).run calls).value.2 := by
  rcases phase_sheet config [] _ earlier (phase_new space head pos sheetConfig config) with
    ⟨front, hphase, hfront⟩
  exact ⟨front, hfront, phase_run front _ calls hphase⟩

section Batches

variable (told : List (List Update)) (t : Tracker StyleElement) (h : Phase told t)
include h

/-- Each batch is ordered. -/
theorem ordered_of_batches (batch : List Update) (hbatch : batch ∈ told) : Ordered batch := by
  rcases batches_of_phase told t h with hquiet |
    ⟨style, before, made, after, rfl, hquiet, hmakes, hafter⟩
  · exact ordered_of_quiet batch (hquiet batch hbatch)
  · rcases List.mem_append.1 hbatch with hmem | hmem
    · exact ordered_of_quiet batch (hquiet batch hmem)
    · rcases List.mem_cons.1 hmem with rfl | hmem
      · exact ordered_of_makes style batch hmakes
      · exact ordered_of_isBatch style batch (hafter batch hmem)

/-- The element is made once, in front of all texts. -/
theorem element_of_batches (before after : List Update) (parent key : NodeKey) (text : String)
    (place : Nat) (hsplit : told.flatten = before ++ .insertText parent key text place :: after) :
    ∃ root pos, .insertElement root parent "style" pos ∈ before ∧
      told.flatten.filter Update.isElement = [.insertElement root parent "style" pos] := by
  have htext : Update.insertText parent key text place ∈ told.flatten := by
    rw [hsplit]
    exact List.mem_append_right _ List.mem_cons_self
  rcases batches_of_phase told t h with hquiet |
    ⟨style, early, made, late, htold, hquiet, hmakes, hlate⟩
  · rcases List.mem_flatten.1 htext with ⟨batch, hbatch, hmem⟩
    exact absurd rfl ((isElement_of_quiet batch (hquiet batch hbatch) _ hmem).2 _ _ _ _)
  · rcases hmakes with ⟨_, rest, rfl, ⟨root, pos, id, rfl⟩, hrest⟩
    -- The stream: attributes, then the element, then texts under it and attributes.
    have hfront : ∀ u ∈ early.flatten, u.isElement = false ∧
        ∀ parent key text place, u ≠ .insertText parent key text place := by
      intro u hu
      rcases List.mem_flatten.1 hu with ⟨batch, hbatch, hmem⟩
      exact isElement_of_quiet batch (hquiet batch hbatch) u hmem
    have hback : ∀ u ∈ rest ++ late.flatten, u.isElement = false ∧
        ∀ parent key text place, u = .insertText parent key text place → parent = style := by
      intro u hu
      rcases List.mem_append.1 hu with hmem | hmem
      · exact isElement_of_isBatch style rest hrest u hmem
      · rcases List.mem_flatten.1 hmem with ⟨batch, hbatch, hin⟩
        exact isElement_of_isBatch style batch (hlate batch hbatch) u hin
    have hstream : told.flatten = (early.flatten ++
        [.insertElement root style "style" pos, .setAttr style "id" id]) ++
          (rest ++ late.flatten) := by
      rw [htold, List.flatten_append, List.flatten_cons, List.append_assoc, List.append_assoc]
    have hlead : Update.insertText parent key text place ∉ early.flatten ++
        [.insertElement root style "style" pos, .setAttr style "id" id] := by
      intro hmem
      rcases List.mem_append.1 hmem with hearly | hmade
      · exact (hfront _ hearly).2 _ _ _ _ rfl
      · simp only [List.mem_cons, reduceCtorEq, List.not_mem_nil, or_self] at hmade
    have hparent : parent = style := by
      rw [hstream] at htext
      exact (hback _ ((List.mem_append.1 htext).resolve_left hlead)).2 _ _ _ _ rfl
    rw [hparent] at hsplit hlead ⊢
    refine ⟨root, pos, ?_, ?_⟩
    · have hahead := prefix_of_not_mem _ _ _ _ _ (hstream.symm.trans hsplit) hlead
      exact hahead.subset (List.mem_append_right _ List.mem_cons_self)
    · have hnone : ∀ updates : List Update, (∀ u ∈ updates, u.isElement = false) →
          updates.filter Update.isElement = [] := by
        intro updates hall
        rw [List.filter_eq_nil_iff]
        exact fun u hu => Bool.eq_false_iff.1 (hall u hu)
      rw [hstream, List.filter_append, List.filter_append, hnone _ fun u hu => (hfront u hu).1,
        hnone _ fun u hu => (hback u hu).1]
      rfl

end Batches

/-- Rules come with the names that need them, whatever happened to the sheet before the
    tracker got it, and to the tracker. In each batch the changes of the sheet stand in
    front of the class attributes, with a text among them for the rule of each name in
    each attribute. And whatever text is in the stream, under whatever parent, the style
    element that is its parent is made in front of it, and no other element is made. -/
theorem rules_before_names (space : KeySpace) (head : NodeKey) (pos : Nat)
    (sheetConfig config : Config) (earlier : List Stylesheet.Call) (calls : List Call) :
    let fed := Stylesheet.run (StyleElement.new space head pos sheetConfig).1 earlier
    let batches := ((new fed.2 config).run calls).value.1.filterMap Reply.taken?
    let stream := fed.1 ++ batches.flatten
    (∀ batch ∈ batches, ∃ changes writes, batch = changes ++ writes ∧
      (∀ u ∈ changes, u.IsOfSheet) ∧
      ∀ u ∈ writes, ∃ node attr, u = .setAttr node classAttribute attr ∧
        ∀ name ∈ words attr, ∃ d : Directive, d.className = name ∧
          ∃ style key place, .insertText style key d.ruleText place ∈ changes) ∧
    ∀ before after style key text place,
      stream = before ++ .insertText style key text place :: after →
      ∃ root index, .insertElement root style "style" index ∈ before ∧
        stream.filter Update.isElement = [.insertElement root style "style" index] := by
  intro fed batches stream
  rcases phase_of_new space head pos sheetConfig config earlier calls with ⟨front, hfront, hphase⟩
  constructor
  · intro batch hbatch
    exact ordered_of_batches _ _ hphase batch (List.mem_append_right _ hbatch)
  · intro before after style key text place hsplit
    have hstream : stream = (front ++ batches).flatten := by
      rw [List.flatten_append, ← hfront]
    rw [hstream] at hsplit ⊢
    exact element_of_batches _ _ hphase before after style key text place hsplit

-- The name in the second batch comes with a rule again. The element does not.
example :
    let sheet := (StyleElement.new (KeySpace.ofEpoch 1) ⟨7⟩ 0 {}).1
    let calls : List Call :=
      [.event (.changed ⟨1⟩ "phone@padding_2px"), .take,
        .event (.added ⟨2⟩ "padding_2px x"), .take]
    let style := NodeKey.pack 1 1 1
    ((new sheet {}).run calls).value.1.filterMap Reply.taken? =
      [[.insertElement ⟨7⟩ style "style" 0, .setAttr style "id" "synxia-style",
        .insertText style (.pack 1 1 2)
          "@media only screen and (max-width: 480px){.padding_2px{padding:2px}}" 0,
        .setAttr ⟨1⟩ "class" "padding_2px"],
        [.insertText style (.pack 1 1 3) ".padding_2px{padding:2px}" 1,
        .setAttr ⟨2⟩ "class" "padding_2px"]] := by
  decide +kernel

end Tracker

end AtomicCss
