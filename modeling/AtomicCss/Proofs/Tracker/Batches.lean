import AtomicCss.Proofs.Tracker.Moves

/-!
# The Batches of a Tracker

What is in the batches that a tracker with a sheet in a document hands out.

Two queues are emptied together when a batch is taken, the sheet's and the
tracker's own. News that is compiled adds to both: the rules of its directives
to the one, and the write with their names to the other. So the two are always cut
at the same place, and a batch is a row of texts with a row of writes behind it in
which every name has its rule among these very texts (`Paired`).

The element that the texts go under is made once, with the first rule. Until then
a batch can hold writes without names only (`Quiet`). The batch with the first
rule has the element in front. In all batches after it the element is taken for
granted, and nothing in them would make it again. These are the three phases of a
tracker, with the batches that were taken so far (`Phase`).

## Main definitions

* `Update.isElement`: An element is made.
* `Named`: The names of a class attribute have their rules among some updates.
* `Paired`, `IsBatch`: The texts and the writes of a batch.
* `Quiet`: A batch without names.
* `IsCreation`, `Makes`: The making of the element, and the batch that it is in.
* `Tracker.Phase`: How far a tracker has come.

## Theorems

* `isElement_of_quiet`, `isElement_of_isBatch`: Most batches make no element.
* `appendAll_of_node`, `appendAll_of_none`: What rules do to the sheet.
* `Phase.grow`, `phase_take`: What adding rules and taking a batch do to the phase.
* `phase_run`: Every history leads through the phases.
* `batches_of_phase`: The batches that were taken.
-/

namespace AtomicCss

open Text

/-- The update makes an element. -/
def Update.isElement : Update → Bool
  | .insertElement _ _ _ _ => true
  | .insertText _ _ _ _ | .setAttr _ _ _ | .removeNode _ | .endOfDocument => false

/-- Each name of a class attribute is that of a directive whose rule is among the
    updates, under the style element. -/
def Named (style : NodeKey) (updates : List Update) (attr : String) : Prop :=
  ∀ name ∈ words attr, ∃ d : Directive, d.className = name ∧
    ∃ node pos, Update.insertText style node d.ruleText pos ∈ updates

/-- A text under the style element for each of the rules. -/
structure Spelled (style : NodeKey) (rules : List String) (texts : List Update) : Prop where
  texts_under : ∀ u ∈ texts, ∃ node text pos, u = .insertText style node text pos
  mem_texts : ∀ rule ∈ rules, ∃ node pos, Update.insertText style node rule pos ∈ texts

/-- Texts under the style element, and writes of class attributes with the names of
    their rules and no others. -/
structure Paired (style : NodeKey) (texts writes : List Update) : Prop where
  texts_under : ∀ u ∈ texts, ∃ node text pos, u = .insertText style node text pos
  writes_named : ∀ u ∈ writes, ∃ node attr, u = .setAttr node classAttribute attr ∧
    Named style texts attr

/-- A batch behind the one that makes the element: texts, and then the writes. -/
def IsBatch (style : NodeKey) (batch : List Update) : Prop :=
  ∃ texts writes, batch = texts ++ writes ∧ Paired style texts writes

/-- A batch in front of it: there is no name in it. -/
def Quiet (batch : List Update) : Prop :=
  ∀ u ∈ batch, ∃ node attr, u = .setAttr node classAttribute attr ∧ words attr = []

/-- The making of a style element. -/
def IsCreation (style : NodeKey) (updates : List Update) : Prop :=
  ∃ root pos id, updates =
    [.insertElement root style "style" pos, .setAttr style "id" id]

/-- The batch that makes the element: what any later one holds has the making of the
    element in front of it. -/
def Makes (style : NodeKey) (batch : List Update) : Prop :=
  ∃ lead rest, batch = lead ++ rest ∧ IsCreation style lead ∧ IsBatch style rest

theorem Named.mono (style : NodeKey) (updates more : List Update) (attr : String)
    (h : Named style updates attr) (hsub : updates ⊆ more) : Named style more attr := by
  intro name hname
  rcases h name hname with ⟨d, hd, node, pos, hmem⟩
  exact ⟨d, hd, node, pos, hsub hmem⟩

/-- Texts with their writes may follow others. -/
theorem Paired.append (style : NodeKey) (texts writes more others : List Update)
    (h : Paired style texts writes) (hmore : Paired style more others) :
    Paired style (texts ++ more) (writes ++ others) := by
  constructor
  · intro u hu
    exact (List.mem_append.1 hu).elim (h.texts_under u) (hmore.texts_under u)
  · intro u hu
    rcases List.mem_append.1 hu with hold | hnew
    · rcases h.writes_named u hold with ⟨node, attr, hwrite, hnamed⟩
      exact ⟨node, attr, hwrite, hnamed.mono _ _ _ _ (List.subset_append_left _ _)⟩
    · rcases hmore.writes_named u hnew with ⟨node, attr, hwrite, hnamed⟩
      exact ⟨node, attr, hwrite, hnamed.mono _ _ _ _ (List.subset_append_right _ _)⟩

/-- Writes without texts are those without names. -/
theorem quiet_iff (style : NodeKey) (batch : List Update) :
    Quiet batch ↔ Paired style [] batch := by
  have hnames : ∀ attr, words attr = [] ↔ Named style [] attr := by
    intro attr
    constructor
    · intro h name hname
      rw [h] at hname
      exact absurd hname List.not_mem_nil
    · intro h
      refine List.eq_nil_iff_forall_not_mem.2 fun name hname => ?_
      rcases h name hname with ⟨_, _, _, _, hmem⟩
      exact absurd hmem List.not_mem_nil
  constructor
  · intro h
    refine ⟨List.forall_mem_nil _, fun u hu => ?_⟩
    rcases h u hu with ⟨node, attr, hwrite, hwords⟩
    exact ⟨node, attr, hwrite, (hnames attr).1 hwords⟩
  · intro h u hu
    rcases h.writes_named u hu with ⟨node, attr, hwrite, hnamed⟩
    exact ⟨node, attr, hwrite, (hnames attr).2 hnamed⟩

/-- In quiet batches there is nothing but attributes. -/
theorem isElement_of_quiet (batch : List Update) (h : Quiet batch) (u : Update) (hu : u ∈ batch) :
    u.isElement = false ∧ ∀ parent key text place, u ≠ .insertText parent key text place := by
  rcases h u hu with ⟨node, attr, rfl, _⟩
  exact ⟨rfl, fun _ _ _ _ => by simp only [ne_eq, reduceCtorEq, not_false_eq_true]⟩

/-- Behind the element all texts are under it, and no element is made. -/
theorem isElement_of_isBatch (style : NodeKey) (batch : List Update) (h : IsBatch style batch)
    (u : Update) (hu : u ∈ batch) :
    u.isElement = false ∧
      ∀ parent key text place, u = .insertText parent key text place → parent = style := by
  rcases h with ⟨texts, writes, rfl, hpaired⟩
  rcases List.mem_append.1 hu with htext | hwrite
  · rcases hpaired.texts_under u htext with ⟨_, _, _, rfl⟩
    refine ⟨rfl, fun parent key text place heq => ?_⟩
    injection heq with hparent
    exact hparent.symm
  · rcases hpaired.writes_named u hwrite with ⟨_, _, rfl, _⟩
    exact ⟨rfl, fun _ _ _ _ heq => by simp only [reduceCtorEq] at heq⟩

namespace StyleElement

/-- Rules under an element that is there: a text for each of them waits. -/
theorem appendAll_of_node (sheet : StyleElement) (style : NodeKey) (rules : List String)
    (h : sheet.node = some style) :
    ∃ texts, (Stylesheet.appendAll sheet rules).pending = sheet.pending ++ texts ∧
      (Stylesheet.appendAll sheet rules).node = some style ∧ Spelled style rules texts := by
  induction rules generalizing sheet with
  | nil =>
      exact ⟨[], (List.append_nil _).symm, h, List.forall_mem_nil _, List.forall_mem_nil _⟩
  | cons rule rest ih =>
      -- The element is there, so the first rule leaves one text and nothing else.
      have hfirst : (Stylesheet.append sheet rule).value = sheet.appendText style rule := by
        rw [value_append, sheet.ensureNode_of_some style h]
        rfl
      have hnode : (Stylesheet.append sheet rule).value.node = some style := by
        rw [hfirst]
        exact h
      have htext : ∃ node pos, (Stylesheet.append sheet rule).value.pending =
          sheet.pending ++ [.insertText style node rule pos] := by
        rw [hfirst]
        exact ⟨_, _, rfl⟩
      rcases htext with ⟨node, pos, htext⟩
      rcases ih _ hnode with ⟨texts, hpending, hafter, hspelled⟩
      rw [htext, List.append_assoc] at hpending
      refine ⟨.insertText style node rule pos :: texts, hpending, hafter, ⟨?_, ?_⟩⟩
      · intro u hu
        rcases List.mem_cons.1 hu with rfl | hmem
        · exact ⟨_, _, _, rfl⟩
        · exact hspelled.texts_under u hmem
      · intro other hother
        rcases List.mem_cons.1 hother with rfl | hmem
        · exact ⟨_, _, List.mem_cons_self⟩
        · rcases hspelled.mem_texts other hmem with ⟨node, pos, htext⟩
          exact ⟨node, pos, List.mem_cons_of_mem _ htext⟩

/-- Making the element first is what the first rule does anyway. -/
theorem appendAll_ensureNode (sheet : StyleElement) (rules : List String) (h : rules ≠ []) :
    Stylesheet.appendAll sheet.ensureNode.value.2 rules = Stylesheet.appendAll sheet rules := by
  cases rules with
  | nil => exact absurd rfl h
  | cons rule rest =>
      have hagain : (Stylesheet.append sheet.ensureNode.value.2 rule).value =
          (Stylesheet.append sheet rule).value := by
        rw [value_append, value_append, ensureNode_of_some _ _ sheet.node_ensureNode]
        rfl
      change Stylesheet.appendAll (Stylesheet.append sheet.ensureNode.value.2 rule).value rest = _
      rw [hagain]
      rfl

/-- The first rules of all make the element, and then a text waits for each of
    them. -/
theorem appendAll_of_none (sheet : StyleElement) (rules : List String) (hnone : sheet.node = none)
    (hrules : rules ≠ []) :
    ∃ style lead texts, IsCreation style lead ∧
      (Stylesheet.appendAll sheet rules).pending = sheet.pending ++ (lead ++ texts) ∧
      (Stylesheet.appendAll sheet rules).node = some style ∧ Spelled style rules texts := by
  have hmade : ∃ style lead, IsCreation style lead ∧ sheet.ensureNode.value.2.node = some style ∧
      sheet.ensureNode.value.2.pending = sheet.pending ++ lead := by
    rw [sheet.ensureNode_of_none hnone]
    exact ⟨_, _, ⟨_, _, _, rfl⟩, rfl, rfl⟩
  rcases hmade with ⟨style, lead, hlead, hnode, hpending⟩
  rcases appendAll_of_node _ style rules hnode with ⟨texts, hafter, htexts⟩
  rw [appendAll_ensureNode sheet rules hrules] at hafter htexts
  rw [hpending, List.append_assoc] at hafter
  exact ⟨style, lead, texts, hlead, hafter, htexts⟩

end StyleElement

namespace Tracker

/-- How far a tracker has come, with the batches that were taken so far: without a
    rule, with rules that all wait, or with the element made. -/
inductive Phase (told : List (List Update)) (t : Tracker StyleElement) : Prop
  | blank (node_eq : t.sheet.node = none) (pending_eq : t.sheet.pending = [])
      (told_quiet : ∀ batch ∈ told, Quiet batch) (outgoing_quiet : Quiet t.outgoing)
  | fresh (style : NodeKey) (lead texts : List Update) (node_eq : t.sheet.node = some style)
      (creation : IsCreation style lead) (pending_eq : t.sheet.pending = lead ++ texts)
      (told_quiet : ∀ batch ∈ told, Quiet batch) (paired : Paired style texts t.outgoing)
  | opened (style : NodeKey) (before after : List (List Update)) (made : List Update)
      (node_eq : t.sheet.node = some style) (told_eq : told = before ++ made :: after)
      (before_quiet : ∀ batch ∈ before, Quiet batch) (makes : Makes style made)
      (after_batch : ∀ batch ∈ after, IsBatch style batch)
      (paired : Paired style t.sheet.pending t.outgoing)

/-- The write of compiled news has the names of the rules that are added with it. -/
theorem paired_compiled (t : Tracker StyleElement) (style : NodeKey) (event : ClassEvent)
    (texts : List Update) (p : Prop) [Decidable p]
    (h : Spelled style
      ((directives t.synthesizer.config.schemeMatch event.attr).map Directive.ruleText) texts) :
    Paired style texts
      (if p then [.setAttr event.node classAttribute (t.compiled event.attr)] else []) := by
  refine ⟨h.texts_under, fun u hu => ?_⟩
  rw [List.mem_ite_nil_right, List.mem_singleton] at hu
  refine ⟨event.node, t.compiled event.attr, hu.2, fun name hname => ?_⟩
  -- The names that were joined are found again, and each came from a directive.
  rw [compiled, words_intercalate _ (isWord_of_mem_names _)] at hname
  rcases List.mem_map.1 hname with ⟨d, hd, rfl⟩
  rcases h.mem_texts _ (List.mem_map_of_mem hd) with ⟨node, pos, hmem⟩
  exact ⟨d, rfl, node, pos, hmem⟩

/-- Rules that are added with writes of their names go on with the phase, or they begin
    the second one. -/
theorem Phase.grow (told : List (List Update)) (t other : Tracker StyleElement)
    (rules : List String) (writes : List Update) (h : Phase told t)
    (hsheet : other.sheet = Stylesheet.appendAll t.sheet rules)
    (houtgoing : other.outgoing = t.outgoing ++ writes)
    (hpaired : ∀ style texts, Spelled style rules texts → Paired style texts writes) :
    Phase told other := by
  rcases h with ⟨hnode, hpending, hquiet, hwaiting⟩ |
    ⟨style, lead, texts, hnode, hlead, hpending, hquiet, hwaiting⟩ |
    ⟨style, before, after, made, hnode, htold, hquiet, hmakes, hafter, hwaiting⟩
  · by_cases hrules : rules = []
    · -- A write without names leaves everything as quiet as it was.
      subst hrules
      have hnew := hpaired .root [] ⟨List.forall_mem_nil _, List.forall_mem_nil _⟩
      refine .blank (by rw [hsheet]; exact hnode) (by rw [hsheet]; exact hpending) hquiet ?_
      rw [houtgoing, quiet_iff .root]
      exact ((quiet_iff .root _).1 hwaiting).append _ _ _ _ _ hnew
    · -- The element is made now, in front of the first texts.
      rcases StyleElement.appendAll_of_none t.sheet rules hnode hrules with
        ⟨style, lead, texts, hlead, hafter, hstyle, hspelled⟩
      refine .fresh style lead texts (by rw [hsheet]; exact hstyle) hlead ?_ hquiet ?_
      · rw [hsheet, hafter, hpending, List.nil_append]
      · rw [houtgoing]
        exact ((quiet_iff style _).1 hwaiting).append _ _ _ _ _ (hpaired style texts hspelled)
  · rcases StyleElement.appendAll_of_node t.sheet style rules hnode with
      ⟨more, hlater, hstyle, hspelled⟩
    refine .fresh style lead (texts ++ more) (by rw [hsheet]; exact hstyle) hlead ?_ hquiet ?_
    · rw [hsheet, hlater, hpending, List.append_assoc]
    · rw [houtgoing]
      exact hwaiting.append _ _ _ _ _ (hpaired style more hspelled)
  · rcases StyleElement.appendAll_of_node t.sheet style rules hnode with
      ⟨more, hlater, hstyle, hspelled⟩
    refine .opened style before after made (by rw [hsheet]; exact hstyle) htold hquiet hmakes
      hafter ?_
    rw [hsheet, hlater, houtgoing]
    exact hwaiting.append _ _ _ _ _ (hpaired style more hspelled)

/-- The phase depends on the two queues alone. -/
theorem Phase.of_eq (told : List (List Update)) (t other : Tracker StyleElement)
    (h : Phase told t) (hsheet : other.sheet = t.sheet) (houtgoing : other.outgoing = t.outgoing) :
    Phase told other :=
  h.grow told t other [] [] hsheet (houtgoing.trans (List.append_nil _).symm)
    fun _ _ hspelled => ⟨hspelled.texts_under, List.forall_mem_nil _⟩

/-- News goes on with the phase, or it begins the second one. -/
theorem phase_handle (told : List (List Update)) (t : Tracker StyleElement) (event : ClassEvent)
    (h : Phase told t) : Phase told (t.handle event).value.2 := by
  by_cases hutility : isUtility event.attr = true
  · have hsheet : (t.handle event).value.2.sheet = (t.withRules event.attr).sheet := by
      rw [handle_of_utility t event hutility]
      rfl
    exact h.grow _ _ _ _ _ hsheet (t.outgoing_handle event)
      fun style texts => t.paired_compiled style event texts _
  · have hplain := handle_of_plain t event (Bool.eq_false_iff.2 hutility)
    refine h.of_eq _ _ _ ?_ ?_
    · rw [hplain]
      rfl
    · rw [hplain]

/-- Taking a batch ends the second phase. -/
theorem phase_take (told : List (List Update)) (t : Tracker StyleElement) (h : Phase told t) :
    Phase (told ++ [t.takeOutgoing.1]) t.takeOutgoing.2 := by
  have htaken : t.takeOutgoing.1 = t.sheet.pending ++ t.outgoing := rfl
  have hnothing : ∀ style, Paired style [] [] := fun style =>
    ⟨List.forall_mem_nil _, List.forall_mem_nil _⟩
  rw [htaken]
  rcases h with ⟨hnode, hpending, hquiet, houtgoing⟩ |
    ⟨style, lead, texts, hnode, hlead, hpending, hquiet, hpaired⟩ |
    ⟨style, before, after, made, hnode, htold, hquiet, hmakes, hafter, hpaired⟩
  · refine .blank hnode rfl ?_ (List.forall_mem_nil _)
    rw [List.forall_mem_append]
    refine ⟨hquiet, fun batch hbatch => ?_⟩
    rw [List.mem_singleton.1 hbatch, hpending]
    exact houtgoing
  · -- This is the batch that makes the element.
    refine .opened style told [] _ hnode rfl hquiet ⟨lead, texts ++ t.outgoing, ?_, hlead, texts,
      t.outgoing, rfl, hpaired⟩ (List.forall_mem_nil _) (hnothing style)
    rw [hpending, List.append_assoc]
  · refine .opened style before (after ++ [t.sheet.pending ++ t.outgoing]) made hnode ?_ hquiet
      hmakes ?_ (hnothing style)
    · rw [htold, List.append_assoc]
      rfl
    · rw [List.forall_mem_append]
      refine ⟨hafter, fun batch hbatch => ?_⟩
      rw [List.mem_singleton.1 hbatch]
      exact ⟨_, _, rfl, hpaired⟩

/-- Every move but taking a batch goes on with the phase, or begins the second one. -/
theorem phase_move (told : List (List Update)) (t : Tracker StyleElement) (m : Move)
    (hmove : m ≠ .take) (h : Phase told t) : Phase told (t.move m) := by
  cases m with
  | news event => exact t.phase_handle told event h
  | report node attr =>
      by_cases hecho : t.awaitedAt node = some attr
      · rw [move, report_of_isEcho t node attr hecho]
        exact h.of_eq _ _ _ rfl rfl
      · rw [move, report_of_not_isEcho t node attr hecho]
        exact t.phase_handle told _ h
  | insert parent node => exact h.of_eq _ _ _ rfl rfl
  | forget node => exact h.of_eq _ _ _ rfl rfl
  | take => exact absurd rfl hmove

/-- So does a row of moves. -/
theorem phase_moved (told : List (List Update)) (t : Tracker StyleElement) (moves : List Move)
    (hmoves : .take ∉ moves) (h : Phase told t) : Phase told (t.moved moves) := by
  induction moves generalizing t with
  | nil => exact h
  | cons m rest ih =>
      rw [List.mem_cons, not_or] at hmoves
      exact ih (t.move m) hmoves.2 (t.phase_move told m (fun heq => hmoves.1 heq.symm) h)

/-- The batch that a call handed out, if it was asked for one. -/
def Reply.taken? : Reply → Option (List Update)
  | .taken batch => some batch
  | .compiled _ | .followed | .swept _ => none

/-- A batch is taken in no other call. -/
theorem taken?_perform (t : Tracker StyleElement) (call : Call) (h : call ≠ .take) :
    (t.perform call).value.1.taken? = none ∧ .take ∉ call.moves := by
  cases call with
  | take => exact absurd rfl h
  | event e =>
      refine ⟨rfl, fun hmem => ?_⟩
      exact absurd (List.mem_singleton.1 hmem) (by simp only [reduceCtorEq, not_false_eq_true])
  | sweep elements =>
      refine ⟨rfl, fun hmem => ?_⟩
      rcases List.mem_map.1 hmem with ⟨entry, _, hnews⟩
      exact absurd hnews (by simp only [reduceCtorEq, not_false_eq_true])
  | update u =>
      refine ⟨rfl, ?_⟩
      cases u with
      | setAttr node name value =>
          rw [Call.moves, List.mem_ite_nil_right, List.mem_singleton]
          exact fun hand => absurd hand.2 (by simp only [reduceCtorEq, not_false_eq_true])
      | insertElement | insertText | removeNode | endOfDocument =>
          simp only [Call.moves, List.mem_singleton, List.not_mem_nil, reduceCtorEq,
            not_false_eq_true]

/-- What a call does to the phase. -/
theorem phase_perform (told : List (List Update)) (t : Tracker StyleElement) (call : Call)
    (h : Phase told t) :
    Phase (told ++ (t.perform call).value.1.taken?.toList) (t.perform call).value.2 := by
  by_cases htake : call = .take
  · rw [htake]
    exact t.phase_take told h
  · rcases t.taken?_perform call htake with ⟨hnone, hmoves⟩
    rw [hnone, Option.toList_none, List.append_nil, moved_perform]
    exact t.phase_moved told call.moves hmoves h

/-- Every history leads through the phases. -/
theorem phase_run (told : List (List Update)) (t : Tracker StyleElement) (calls : List Call)
    (h : Phase told t) :
    Phase (told ++ (t.run calls).value.1.filterMap Reply.taken?) (t.run calls).value.2 := by
  induction calls generalizing told t with
  | nil =>
      rw [show (t.run []).value.1.filterMap Reply.taken? = [] from rfl, List.append_nil]
      exact h
  | cons call rest ih =>
      have hrest := ih _ _ (t.phase_perform told call h)
      rw [List.append_assoc] at hrest
      have hreplies : (t.run (call :: rest)).value.1.filterMap Reply.taken? =
          (t.perform call).value.1.taken?.toList ++
            ((t.perform call).value.2.run rest).value.1.filterMap Reply.taken? := by
        change List.filterMap Reply.taken? (_ :: _) = _
        rw [List.filterMap_cons]
        cases (t.perform call).value.1.taken? <;> rfl
      rw [hreplies]
      exact hrest

/-- A new tracker is in the first phase. -/
theorem phase_new (space : KeySpace) (head : NodeKey) (pos : Nat) (sheetConfig config : Config) :
    Phase [] (new (StyleElement.new space head pos sheetConfig).1 config) :=
  .blank rfl rfl (List.forall_mem_nil _) (List.forall_mem_nil _)

/-- The batches of a history without those that are quiet at its beginning: the one
    that makes the element, and texts with their writes. -/
theorem batches_of_phase (told : List (List Update)) (t : Tracker StyleElement)
    (h : Phase told t) :
    (∀ batch ∈ told, Quiet batch) ∨
      ∃ style before made after, told = before ++ made :: after ∧
        (∀ batch ∈ before, Quiet batch) ∧ Makes style made ∧
        ∀ batch ∈ after, IsBatch style batch := by
  rcases h with ⟨_, _, hquiet, _⟩ | ⟨style, lead, texts, _, _, _, hquiet, _⟩ |
    ⟨style, before, after, made, _, htold, hquiet, hmakes, hafter, _⟩
  · exact .inl hquiet
  · exact .inl hquiet
  · exact .inr ⟨style, before, made, after, htold, hquiet, hmakes, hafter⟩

end Tracker

end AtomicCss
