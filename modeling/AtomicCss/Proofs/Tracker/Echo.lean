import AtomicCss.Proofs.Tracker.Step

/-!
# Reports of Own Writes

When a host can report a whole batch of writes back without consequences.

A tracker asks the host to write compiled attributes, and the host reports every
write, those included. Each element has one slot for the write that it awaits,
and the report that matches the slot is let pass. A write that is reported
without being awaited is compiled like news, and its names have lost their scope
by then: the sheet gets a second rule for each of them, one that applies
everywhere.

One slot is enough for one write. It is not enough for two writes of the same
element that travel in one batch: the second takes the slot, and the first comes
back as a stranger. Nor is it enough if something empties the slot while the
write is still waiting, as a new insertion of the element does, or an attribute
that compiles to itself.

`echo_quiet_iff` says exactly when a batch can come back without consequences.
Only writes that hold an underscore matter, since no other attribute is compiled.
Each element may have one of them in the batch, it has to be the one in its slot,
and the stylesheet's own changes, which travel in front, must not insert the
element anew.

The argument runs along the batch. `noise` counts the rules and the waiting
writes, no report lowers it, and a report that is not awaited raises it for good
(`noise_lt_report`). So a batch without consequences is one in which every report
that could be compiled is awaited when it arrives, and slots being cleared one by
one, that comes down to the condition above.

## Main definitions

* `utilityWrites`: The writes of an element that could be compiled.
* `insertedNodes`: The elements that a list of updates inserts.
* `LetsPass`: Whether a slot is enough for some writes.
* `Tracker.noise`: The rules and the waiting writes, counted.

## Theorems

* `run_silent`: The stylesheet's own changes only empty slots.
* `report_quiet`, `letsPass_report`: What a report without consequences does.
* `noise_lt_report`: A report that is not awaited cannot be taken back.
* `noise_le_run`: No report lowers the noise.
* `run_writes_quiet_iff`: When reports of writes have no consequences.
* `echo_quiet_iff`: When a whole batch can be reported back.
* `echo_two_writes`: A batch with two writes of one element cannot.
-/

namespace AtomicCss

open Text

/-- The writes of an element's class attribute that could be compiled, in order. -/
def utilityWrites (updates : List Update) (node : NodeKey) : List String :=
  updates.filterMap fun u =>
    match u with
    | .setAttr other name value =>
      if other = node ∧ sameCaseless name classAttribute = true ∧ isUtility value = true
      then some value else none
    | _ => none

/-- The elements that a list of updates inserts. -/
def insertedNodes (updates : List Update) : List NodeKey :=
  updates.filterMap fun u =>
    match u with
    | .insertElement _ node _ _ => some node
    | _ => none

theorem utilityWrites_cons_write (rest : List Update) (node other : NodeKey) (value : String) :
    utilityWrites (.setAttr other classAttribute value :: rest) node =
      if other = node ∧ isUtility value = true then value :: utilityWrites rest node
      else utilityWrites rest node := by
  have hname : sameCaseless classAttribute classAttribute = true := by decide
  by_cases h : other = node ∧ isUtility value = true
  · rw [if_pos h]
    exact List.filterMap_cons_some (if_pos ⟨h.1, hname, h.2⟩)
  · rw [if_neg h]
    exact List.filterMap_cons_none (if_neg (fun hcond => h ⟨hcond.1, hcond.2.2⟩))

theorem isUtility_of_mem_utilityWrites (updates : List Update) (node : NodeKey) (value : String)
    (h : value ∈ utilityWrites updates node) : isUtility value = true := by
  rcases List.mem_filterMap.1 h with ⟨u, _, hu⟩
  cases u with
  | setAttr other name attr =>
      dsimp only at hu
      split at hu
      · next hcond => rw [← Option.some.inj hu]; exact hcond.2.2
      · exact absurd hu (by simp only [reduceCtorEq, not_false_eq_true])
  | _ => exact absurd hu (by simp only [reduceCtorEq, not_false_eq_true])

theorem utilityWrites_of_silent (updates : List Update) (h : ∀ u ∈ updates, u.IsSilent)
    (node : NodeKey) : utilityWrites updates node = [] := by
  refine List.filterMap_eq_nil_iff.2 (fun u hu => ?_)
  have hu := h u hu
  cases u with
  | setAttr other name value =>
      exact if_neg (fun hand => Bool.false_ne_true (Eq.trans (Eq.symm hu) hand.2.1))
  | _ => rfl

/-- Silent updates in front do not count. -/
theorem utilityWrites_silent_append (updates writes : List Update)
    (h : ∀ u ∈ updates, u.IsSilent) (node : NodeKey) :
    utilityWrites (updates ++ writes) node = utilityWrites writes node := by
  have happ : utilityWrites (updates ++ writes) node
      = utilityWrites updates node ++ utilityWrites writes node := List.filterMap_append
  rw [happ, utilityWrites_of_silent updates h node, List.nil_append]

/-- Writes insert nothing. -/
theorem insertedNodes_append_writes (updates writes : List Update)
    (h : ∀ u ∈ writes, ∃ node attr, u = .setAttr node classAttribute attr) :
    insertedNodes (updates ++ writes) = insertedNodes updates := by
  have happ : insertedNodes (updates ++ writes)
      = insertedNodes updates ++ insertedNodes writes := List.filterMap_append
  have hnone : insertedNodes writes = [] := by
    refine List.filterMap_eq_nil_iff.2 (fun u hu => ?_)
    rcases h u hu with ⟨node, attr, rfl⟩
    rfl
  rw [happ, hnone, List.append_nil]

/-- What a slot lets pass: no writes at all, or the one that is in it. -/
def LetsPass (slot : Option String) (values : List String) : Prop :=
  values = [] ∨ ∃ value, values = [value] ∧ slot = some value

theorem letsPass_none_iff (values : List String) : LetsPass none values ↔ values = [] := by
  constructor
  · intro h
    rcases h with hnone | ⟨_, _, hslot⟩
    · exact hnone
    · exact absurd hslot (by simp only [reduceCtorEq, not_false_eq_true])
  · exact Or.inl

theorem letsPass_cons_iff (slot : Option String) (value : String) (rest : List String) :
    LetsPass slot (value :: rest) ↔ slot = some value ∧ rest = [] := by
  constructor
  · intro h
    rcases h with hnone | ⟨other, hone, hslot⟩
    · exact absurd hnone (List.cons_ne_nil _ _)
    · rw [List.cons.injEq] at hone
      exact ⟨by rw [hslot, hone.1], hone.2⟩
  · intro h
    exact Or.inr ⟨value, by rw [h.2], h.1⟩

namespace Tracker

variable {σ : Type} [Stylesheet σ]

theorem run_cons_update (t : Tracker σ) (u : Update) (rest : List Update) :
    (t.run ((u :: rest).map .update)).value.2 = ((t.follow u).value.run (rest.map .update)).value.2 :=
  rfl

theorem follow_write (t : Tracker σ) (node : NodeKey) (value : String) :
    t.follow (.setAttr node classAttribute value) = t.report node value := by
  rw [follow, if_pos (by decide)]

/-- Clearing a slot leaves all others. -/
theorem awaitedAt_report_of_isEcho (t : Tracker σ) (node other : NodeKey) (value : String)
    (h : t.awaitedAt node = some value) :
    (t.report node value).value.awaitedAt other = if node = other then none else t.awaitedAt other := by
  rw [report_of_isEcho t node value h, awaitedAt_clear]

/-- News of an attribute that is not compiled leaves all slots. -/
theorem awaitedAt_handle_of_plain (t : Tracker σ) (event : ClassEvent) (other : NodeKey)
    (h : isUtility event.attr = false) :
    (t.handle event).value.2.awaitedAt other = t.awaitedAt other := by
  rw [awaitedAt_handle, if_neg]
  intro hand
  rw [h] at hand
  exact Bool.false_ne_true hand.2

/-- A report that is awaited, or that could not be compiled, leaves the sheet and
    the waiting writes alone. -/
theorem report_quiet (t : Tracker σ) (node : NodeKey) (attr : String)
    (h : t.awaitedAt node = some attr ∨ isUtility attr = false) :
    (t.report node attr).value.sheet = t.sheet ∧
      (t.report node attr).value.outgoing = t.outgoing := by
  by_cases hecho : t.awaitedAt node = some attr
  · rw [report_of_isEcho t node attr hecho]
    exact ⟨rfl, rfl⟩
  · have hnews : isUtility (t.newsOf node attr).attr = false := by
      rw [newsOf_attr]
      exact h.resolve_left hecho
    rw [report_of_not_isEcho t node attr hecho, handle_of_plain t _ hnews]
    exact ⟨rfl, rfl⟩

/-- After the report that is awaited, nothing more may come for the element. -/
theorem letsPass_report_of_isEcho (t : Tracker σ) (node : NodeKey) (attr : String)
    (rest : List Update) (h : t.awaitedAt node = some attr) (other : NodeKey) :
    LetsPass ((t.report node attr).value.awaitedAt other) (utilityWrites rest other) ↔
      LetsPass (t.awaitedAt other)
        (utilityWrites (.setAttr node classAttribute attr :: rest) other) := by
  rw [awaitedAt_report_of_isEcho t node other attr h, utilityWrites_cons_write]
  by_cases heq : node = other
  · subst heq
    rw [if_pos rfl, letsPass_none_iff, h]
    by_cases hutility : isUtility attr = true
    · rw [if_pos ⟨rfl, hutility⟩, letsPass_cons_iff]
      exact ⟨fun hnone => ⟨rfl, hnone⟩, fun hand => hand.2⟩
    · rw [if_neg (fun hand => hutility hand.2)]
      constructor
      · exact Or.inl
      · intro hpass
        rcases hpass with hnone | ⟨value, hone, hslot⟩
        · exact hnone
        · -- The slot holds no underscore, so no write that counts can be in it.
          have hmem : attr ∈ utilityWrites rest node := by
            rw [hone, Option.some.inj hslot]
            exact List.mem_singleton_self value
          exact absurd (isUtility_of_mem_utilityWrites rest node attr hmem) hutility
  · rw [if_neg heq, if_neg (fun hand => heq hand.1)]

/-- A quiet report leaves each slot as sufficient for the writes behind it as the
    slot was for all of them. -/
theorem letsPass_report (t : Tracker σ) (node : NodeKey) (attr : String) (rest : List Update)
    (h : t.awaitedAt node = some attr ∨ isUtility attr = false) (other : NodeKey) :
    LetsPass ((t.report node attr).value.awaitedAt other) (utilityWrites rest other) ↔
      LetsPass (t.awaitedAt other)
        (utilityWrites (.setAttr node classAttribute attr :: rest) other) := by
  by_cases hecho : t.awaitedAt node = some attr
  · exact t.letsPass_report_of_isEcho node attr rest hecho other
  · have hplain := h.resolve_left hecho
    have hskip : ¬ (node = other ∧ isUtility attr = true) := by
      intro hand
      rw [hplain] at hand
      exact Bool.false_ne_true hand.2
    rw [report_of_not_isEcho t node attr hecho,
      awaitedAt_handle_of_plain t _ other (by rw [newsOf_attr]; exact hplain),
      utilityWrites_cons_write, if_neg hskip]

/-- The stylesheet's own changes only empty slots: those of the elements that they
    insert. -/
theorem run_silent (t : Tracker σ) (updates : List Update) (h : ∀ u ∈ updates, u.IsSilent) :
    (t.run (updates.map .update)).value.2.synthesizer = t.synthesizer ∧
      (t.run (updates.map .update)).value.2.outgoing = t.outgoing ∧
      ∀ node, (t.run (updates.map .update)).value.2.awaitedAt node =
        if node ∈ insertedNodes updates then none else t.awaitedAt node := by
  -- The slots change on the way, so the tracker is free in the induction.
  induction updates generalizing t with
  | nil => exact ⟨rfl, rfl, fun node => rfl⟩
  | cons u rest ih =>
      have hrest := ih (t.follow u).value (fun v hv => h v (List.mem_cons_of_mem u hv))
      rw [run_cons_update]
      cases u with
      | setAttr node name value =>
          have hname : sameCaseless name classAttribute = false := h _ List.mem_cons_self
          have hstay : (t.follow (.setAttr node name value)).value = t := by
            rw [follow, if_neg (by rw [hname]; exact Bool.false_ne_true)]
            rfl
          rw [hstay] at hrest ⊢
          exact hrest
      | insertText | endOfDocument => exact hrest
      | removeNode => exact absurd (h _ List.mem_cons_self) id
      | insertElement parent node tag pos =>
          refine ⟨hrest.1, hrest.2.1, fun other => ?_⟩
          have hmem : other ∈ insertedNodes (.insertElement parent node tag pos :: rest) ↔
              node = other ∨ other ∈ insertedNodes rest := by
            rw [eq_comm]
            exact List.mem_cons
          have hslot : (t.follow (.insertElement parent node tag pos)).value.awaitedAt other
              = if node = other then none else t.awaitedAt other := by
            exact t.awaitedAt_insert node other parent
          rw [hrest.2.2 other, hslot]
          simp only [hmem]
          by_cases hin : other ∈ insertedNodes rest
          · rw [if_pos hin, if_pos (Or.inr hin)]
          · by_cases heq : node = other
            · rw [if_neg hin, if_pos heq, if_pos (Or.inl heq)]
            · rw [if_neg hin, if_neg heq, if_neg (fun hor => hor.elim heq hin)]

variable [LawfulStylesheet σ]

/-- The rules and the waiting writes, counted. -/
def noise (t : Tracker σ) : Nat :=
  LawfulStylesheet.size t.sheet + t.outgoing.length

/-- Compiling makes noise: it adds a rule, or it finds nothing to compile, and then
    the attribute that had an underscore is replaced by the empty one. -/
theorem noise_lt_handle (t : Tracker σ) (event : ClassEvent) (h : isUtility event.attr = true) :
    t.noise < (t.handle event).value.2.noise := by
  have hsize := LawfulStylesheet.size_appendAll t.sheet
    ((directives t.synthesizer.config.schemeMatch event.attr).map Directive.ruleText)
  have hsheet : (t.handle event).value.2.sheet = Stylesheet.appendAll t.sheet
      ((directives t.synthesizer.config.schemeMatch event.attr).map Directive.ruleText) := by
    rw [handle_of_utility t event h]
    rfl
  rw [List.length_map] at hsize
  rw [noise, noise, hsheet, outgoing_handle, List.length_append]
  by_cases hsame : t.compiled event.attr = event.attr
  · have hsome : directives t.synthesizer.config.schemeMatch event.attr ≠ [] := by
      intro hnone
      rw [compiled, hnone, List.map_nil, String.intercalate_nil] at hsame
      rw [← hsame] at h
      exact absurd h (by decide)
    have hpos := List.length_pos_iff.2 hsome
    -- Nothing is written, so the rule has to be what raises the sum.
    rw [if_neg (fun hand => hand.2 hsame), List.length_nil]
    omega
  · rw [if_pos ⟨h, hsame⟩, List.length_singleton]
    omega

/-- A report that is not awaited cannot be taken back. -/
theorem noise_lt_report (t : Tracker σ) (node : NodeKey) (attr : String)
    (h : t.awaitedAt node ≠ some attr) (hutility : isUtility attr = true) :
    t.noise < (t.report node attr).value.noise := by
  rw [report_of_not_isEcho t node attr h]
  exact noise_lt_handle t _ (by rw [newsOf_attr]; exact hutility)

theorem noise_le_report (t : Tracker σ) (node : NodeKey) (attr : String) :
    t.noise ≤ (t.report node attr).value.noise := by
  by_cases hquiet : t.awaitedAt node = some attr ∨ isUtility attr = false
  · have hsame := t.report_quiet node attr hquiet
    exact Nat.le_of_eq (by rw [noise, noise, hsame.1, hsame.2])
  · rw [not_or, Bool.not_eq_false] at hquiet
    exact Nat.le_of_lt (t.noise_lt_report node attr hquiet.1 hquiet.2)

theorem noise_le_follow (t : Tracker σ) (u : Update) : t.noise ≤ (t.follow u).value.noise := by
  cases u with
  | setAttr node name value =>
      rw [follow]
      split
      · exact t.noise_le_report node value
      · exact Nat.le_refl _
  | insertElement | insertText | removeNode | endOfDocument => exact Nat.le_refl _

/-- No report lowers the noise. -/
theorem noise_le_run (t : Tracker σ) (updates : List Update) :
    t.noise ≤ (t.run (updates.map .update)).value.2.noise := by
  induction updates generalizing t with
  | nil => exact Nat.le_refl _
  | cons u rest ih => exact Nat.le_trans (t.noise_le_follow u) (ih (t.follow u).value)

/-- Reports of writes have no consequences exactly if each slot lets the writes of
    its element pass. -/
theorem run_writes_quiet_iff (t : Tracker σ) (writes : List Update)
    (h : ∀ u ∈ writes, ∃ node attr, u = .setAttr node classAttribute attr) :
    let after := (t.run (writes.map .update)).value.2
    (after.sheet = t.sheet ∧ after.outgoing = t.outgoing) ↔
      ∀ node, LetsPass (t.awaitedAt node) (utilityWrites writes node) := by
  induction writes generalizing t with
  | nil => exact ⟨fun _ node => Or.inl rfl, fun _ => ⟨rfl, rfl⟩⟩
  | cons u rest ih =>
      rcases h u List.mem_cons_self with ⟨node, attr, rfl⟩
      have hrest := ih (t.report node attr).value (fun v hv => h v (List.mem_cons_of_mem _ hv))
      dsimp only at hrest ⊢
      rw [run_cons_update, follow_write]
      by_cases hquiet : t.awaitedAt node = some attr ∨ isUtility attr = false
      · have hsame := t.report_quiet node attr hquiet
        rw [hsame.1, hsame.2] at hrest
        exact Iff.trans hrest (forall_congr' (t.letsPass_report node attr rest hquiet))
      · -- The report is compiled, and neither side can hold: the noise stays, and the
        -- write that came first is not in its slot.
        rw [not_or, Bool.not_eq_false] at hquiet
        constructor
        · intro hafter
          have hlt := t.noise_lt_report node attr hquiet.1 hquiet.2
          have hle := (t.report node attr).value.noise_le_run rest
          have hnoise : ((t.report node attr).value.run (rest.map .update)).value.2.noise
              = t.noise := by
            rw [noise, hafter.1, hafter.2, noise]
          omega
        · intro hall
          have hnode := hall node
          rw [utilityWrites_cons_write, if_pos ⟨rfl, hquiet.2⟩, letsPass_cons_iff] at hnode
          exact absurd hnode.1 hquiet.1

/-- Changes that were taken are not taken again, as long as no rule is added. -/
theorem takeOutgoing_of_sheet_eq (t after : Tracker σ)
    (h : after.sheet = t.takeOutgoing.2.sheet) : after.takeOutgoing.1 = after.outgoing := by
  have hdrain : (Stylesheet.drain after.sheet).1 = [] := by
    rw [h]
    exact LawfulStylesheet.drain_drain t.sheet
  rw [takeOutgoing, hdrain]
  rfl

/-- A batch can be reported back without consequences exactly if, of the writes in
    it that could be compiled, each element has at most one, which is in its slot,
    and the batch does not insert that element. -/
theorem echo_quiet_iff (sheet : σ) (config : Config) (calls : List Call)
    (hsheet : LawfulStylesheet.Sound sheet) :
    let t := ((new sheet config).run calls).value.2
    let batch := t.takeOutgoing.1
    let taken := t.takeOutgoing.2
    let after := (taken.run (batch.map .update)).value.2
    (after.sheet = taken.sheet ∧ after.takeOutgoing.1 = []) ↔
      ∀ node, utilityWrites batch node = [] ∨
        ∃ value, utilityWrites batch node = [value] ∧ t.awaitedAt node = some value ∧
          node ∉ insertedNodes batch := by
  intro t batch taken after
  have htidy : t.Tidy := tidy_run _ calls (tidy_new sheet config hsheet)
  have hsilent := LawfulStylesheet.isSilent_drain t.sheet htidy.sound
  have hinserted : insertedNodes batch = insertedNodes (Stylesheet.drain t.sheet).1 :=
    insertedNodes_append_writes _ t.outgoing htidy.writes
  have hwrites : ∀ node, utilityWrites batch node = utilityWrites t.outgoing node :=
    utilityWrites_silent_append _ t.outgoing hsilent
  -- The sheet's own changes come first, and the writes find what those left behind.
  rcases taken.run_silent (Stylesheet.drain t.sheet).1 hsilent with ⟨hsyn, hout, hslots⟩
  have hmid : (taken.run ((Stylesheet.drain t.sheet).1.map .update)).value.2.sheet = taken.sheet :=
    congrArg Synthesizer.sheet hsyn
  have hafter : after = ((taken.run ((Stylesheet.drain t.sheet).1.map .update)).value.2.run
      (t.outgoing.map .update)).value.2 := by
    change (taken.run (((Stylesheet.drain t.sheet).1 ++ t.outgoing).map .update)).value.2 = _
    rw [List.map_append, run_append]
  have hquiet := (taken.run ((Stylesheet.drain t.sheet).1.map .update)).value.2.run_writes_quiet_iff
    t.outgoing htidy.writes
  dsimp only at hquiet
  rw [← hafter, hmid, hout] at hquiet
  have hside : (after.sheet = taken.sheet ∧ after.takeOutgoing.1 = []) ↔
      (after.sheet = taken.sheet ∧ after.outgoing = []) :=
    and_congr_right (fun hsame => by rw [t.takeOutgoing_of_sheet_eq after hsame])
  refine Iff.trans hside (Iff.trans hquiet (forall_congr' (fun node => ?_)))
  -- An element that the sheet inserts has an empty slot by then.
  rw [hslots, hinserted, hwrites]
  by_cases hin : node ∈ insertedNodes (Stylesheet.drain t.sheet).1
  · rw [if_pos hin, letsPass_none_iff]
    exact ⟨Or.inl, fun h => h.elim id (fun ⟨_, _, _, hnot⟩ => absurd hin hnot)⟩
  · rw [if_neg hin]
    refine or_congr_right (exists_congr (fun value => and_congr_right (fun _ => ?_)))
    exact ⟨fun hslot => ⟨hslot, hin⟩, And.left⟩

/-- One write per batch comes back without consequences. -/
theorem echo_quiet_one_write :
    let t := ((new ({} : MemorySheet) {}).run
      [.event (.changed ⟨1⟩ "hover:color_red")]).value.2
    let after := (t.takeOutgoing.2.run (t.takeOutgoing.1.map .update)).value.2
    LawfulStylesheet.Sound ({} : MemorySheet) ∧
      after.sheet = t.takeOutgoing.2.sheet ∧ after.takeOutgoing.1 = [] := by
  refine ⟨trivial, (echo_quiet_iff ({} : MemorySheet) {}
    [.event (.changed ⟨1⟩ "hover:color_red")] trivial).2 (fun node => ?_)⟩
  have hbatch : (((new ({} : MemorySheet) {}).run
      [.event (.changed ⟨1⟩ "hover:color_red")]).value.2.takeOutgoing).1
      = [.setAttr ⟨1⟩ classAttribute "color_red"] := by decide +kernel
  rw [hbatch, utilityWrites_cons_write]
  by_cases hnode : (⟨1⟩ : NodeKey) = node
  · subst hnode
    exact Or.inr ⟨"color_red", by decide +kernel⟩
  · exact Or.inl (if_neg (fun hand => hnode hand.1))

/-- Two writes of one element do not: the rules come again without their scope. -/
theorem echo_two_writes :
    let t := ((new ({} : MemorySheet) {}).run
      [.event (.changed ⟨1⟩ "hover:color_red"), .event (.changed ⟨1⟩ "focus:color_blue")]).value.2
    let after := (t.takeOutgoing.2.run (t.takeOutgoing.1.map .update)).value.2
    t.takeOutgoing.2.sheet.rules =
        #[".color_red:hover\x7bcolor:red\x7d", ".color_blue:focus\x7bcolor:blue\x7d"] ∧
      after.sheet.rules = t.takeOutgoing.2.sheet.rules ++
        #[".color_red\x7bcolor:red\x7d", ".color_blue\x7bcolor:blue\x7d"] ∧
      after.sheet ≠ t.takeOutgoing.2.sheet := by
  decide +kernel

end Tracker

end AtomicCss
