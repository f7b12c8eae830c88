import AtomicCss.Proofs.Tracker.Removal
import AtomicCss.Proofs.Tracker.Reports

/-!
# What Is Remembered of an Element

When the attribute that a tracker remembers is the one that an element has.

An element is remembered by two slots: its attribute, and the write whose report is
awaited. What is in them depends on nothing but the reports on this element since
it was last inserted or taken out, which `life` reads off a history; other elements
and the stylesheet do not come into it (`remembers_run`). Each report changes the
slots in one of three ways. A report that is let pass empties the second slot and
leaves the first. A report that is compiled fills the first with its result, and the
second too if there is something to write. Any other report fills the first and
leaves the second, since the host may not have seen the write yet.

The last way is where memory and document can part. A write is on its way, the
element gets an attribute without an underscore, and then the write arrives and is
reported. It is awaited, so it is let pass and leaves the first slot, in which the
other attribute stands by now. The element has what was written, and the tracker
remembers what was there before.

Nothing else can go wrong (`classOf_eq_last_report_iff`). A report is let pass only
if its attribute is in the second slot, and as long as no other report came in
between, what is in the second slot is in the first as well.

## Main definitions

* `Report.shown`: What an element has after a report.
* `hear`, `recalled`: What reports make of the two slots.
* `Tracker.life`: The reports on an element since it was last inserted or taken out.
* `Tracker.Remembers`: The slots of an element are what its reports made of them.

## Theorems

* `recalled_of_awaited`: What the slots hold while a write is awaited.
* `recalled_eq_last_iff`: When the first slot holds what the last report shows.
* `remembers_handle`, `remembers_report`: News and reports are heard.
* `remembers_perform`, `remembers_run`: So are the calls of a history.
* `classOf_eq_last_report_iff`: When the remembered attribute is the last one.
* `classOf_late_echo`: When it is not.
-/

namespace AtomicCss

open Text

/-- What an element has after a report, `f` being what compiling makes of an
    attribute. -/
def Report.shown (f : String → String) (r : Report) : String :=
  if r.isCompiled = true then f r.attr else r.attr

/-- The reports on one element. -/
def reportsOn (node : NodeKey) (reports : List Report) : List Report :=
  reports.filter fun r => r.node = node

theorem reportsOn_append (node : NodeKey) (reports more : List Report) :
    reportsOn node (reports ++ more) = reportsOn node reports ++ reportsOn node more :=
  List.filter_append reports more

theorem reportsOn_singleton (node : NodeKey) (r : Report) :
    reportsOn node [r] = if r.node = node then [r] else [] := by
  simp only [reportsOn, List.filter_cons, List.filter_nil, decide_eq_true_eq]

/-- What a report makes of the attribute of its element and of the write that is
    awaited, `f` being what compiling makes of an attribute. -/
def hear (f : String → String) (slots : Option String × Option String) (r : Report) :
    Option String × Option String :=
  if r.echo = true then (slots.1, none)
  else if isUtility r.attr = true then
    (some (f r.attr), if f r.attr = r.attr then none else some (f r.attr))
  else (some r.attr, slots.2)

/-- What reports make of the slots of a new element. -/
def recalled (f : String → String) (past : List Report) : Option String × Option String :=
  past.foldl (hear f) (none, none)

theorem recalled_concat (f : String → String) (past : List Report) (r : Report) :
    recalled f (past ++ [r]) = hear f (recalled f past) r := by
  rw [recalled, List.foldl_append]
  rfl

/-- A report that is not let pass fills the first slot with what it shows. -/
theorem hear_of_not_echo (f : String → String) (slots : Option String × Option String)
    (r : Report) (h : r.echo = false) : (hear f slots r).1 = some (r.shown f) := by
  rw [hear, Report.shown, Report.isCompiled, h, if_neg Bool.false_ne_true, Bool.not_false,
    Bool.and_true]
  split <;> rfl

/-- If a write is awaited, there was a report before. The last one filled both slots
    with the write, or it had no underscore and filled the first one only. -/
theorem recalled_of_awaited (f : String → String) (past : List Report) (attr : String)
    (h : (recalled f past).2 = some attr) :
    ∃ front before, past = front ++ [before] ∧
      (recalled f past).1 = some (if isUtility before.attr = true then attr else before.attr) := by
  rcases List.eq_nil_or_concat past with hnil | ⟨front, before, hpast⟩
  · rw [hnil] at h
    exact absurd h (by simp only [recalled, List.foldl_nil, reduceCtorEq, not_false_eq_true])
  · rw [List.concat_eq_append] at hpast
    refine ⟨front, before, hpast, ?_⟩
    rw [hpast, recalled_concat, hear] at h ⊢
    by_cases hecho : before.echo = true
    · rw [if_pos hecho] at h
      exact absurd h (by simp only [reduceCtorEq, not_false_eq_true])
    · rw [if_neg hecho] at h ⊢
      -- A report that is not let pass fills both slots, or the first one only.
      by_cases hutility : isUtility before.attr = true
      · rw [if_pos hutility] at h ⊢
        rw [if_pos hutility]
        by_cases hsame : f before.attr = before.attr
        · rw [if_pos hsame] at h
          exact absurd h (by simp only [reduceCtorEq, not_false_eq_true])
        · rw [if_neg hsame] at h
          exact h
      · rw [if_neg hutility, if_neg hutility]

/-- Of a row with at least two entries, a statement about the last two is about one
    pair only. -/
theorem forall_append_pair_iff {α : Type} (most : List α) (first last : α) (P : α → α → Prop) :
    (∀ front a b, most ++ [first, last] = front ++ [a, b] → P a b) ↔ P first last := by
  constructor
  · exact fun h => h most first last rfl
  · intro h front a b hsplit
    cases (List.append_inj' hsplit rfl).2
    exact h

/-- When the attribute that is recalled is what the last report shows: always, but
    for a report that was let pass right after one of another attribute without an
    underscore. -/
theorem recalled_eq_last_iff (f : String → String) (past : List Report)
    (h : ∀ front r, past = front ++ [r] → r.echo = true → (recalled f front).2 = some r.attr) :
    (recalled f past).1 = past.getLast?.map (Report.shown f) ↔
      ∀ front plain echo, past = front ++ [plain, echo] → echo.echo = true →
        isUtility plain.attr = false → plain.attr = echo.attr := by
  rcases List.eq_nil_or_concat past with hnil | ⟨front, last, hpast⟩
  · rw [hnil]
    refine iff_of_true rfl (fun front plain echo hsplit => ?_)
    exact absurd hsplit.symm (List.append_ne_nil_of_right_ne_nil _ (List.cons_ne_nil _ _))
  · rw [List.concat_eq_append] at hpast
    have hawaited := h front last hpast
    rw [hpast, recalled_concat, List.getLast?_concat, Option.map_some]
    by_cases hecho : last.echo = true
    · -- The report leaves in the first slot what the one before it put there.
      rcases recalled_of_awaited f front last.attr (hawaited hecho) with
        ⟨most, before, hfront, hbefore⟩
      have hpair : front ++ [last] = most ++ [before, last] := by
        rw [hfront, List.append_assoc]
        rfl
      have hshown : last.shown f = last.attr := by
        rw [Report.shown, Report.isCompiled, hecho, Bool.not_true, Bool.and_false]
        rfl
      rw [hear, if_pos hecho, hbefore, hshown, Option.some.injEq, hpair,
        forall_append_pair_iff most before last fun plain echo =>
          echo.echo = true → isUtility plain.attr = false → plain.attr = echo.attr]
      by_cases hutility : isUtility before.attr = true
      · rw [if_pos hutility, hutility]
        exact iff_of_true rfl (fun _ hplain => absurd hplain.symm Bool.false_ne_true)
      · rw [if_neg hutility]
        exact ⟨fun heq _ _ => heq, fun hall => hall hecho (Bool.eq_false_iff.2 hutility)⟩
    · -- The report itself was heard, and the condition says nothing of it.
      refine iff_of_true (hear_of_not_echo f _ last (Bool.eq_false_iff.2 hecho)) ?_
      intro most plain echo hsplit htrue
      have hlast := congrArg List.getLast? hsplit
      rw [List.append_cons most plain [echo], List.getLast?_concat, List.getLast?_concat,
        Option.some.injEq] at hlast
      rw [← hlast] at htrue
      exact absurd htrue hecho

namespace Tracker

variable {σ : Type}

/-- The two slots of an element. -/
def slots (t : Tracker σ) (node : NodeKey) : Option String × Option String :=
  (t.classOf node, t.awaitedAt node)

theorem slots_new (sheet : σ) (config : Config) (node : NodeKey) :
    (new sheet config).slots node = (none, none) := by
  rw [slots, classOf, awaitedAt, new, Std.TreeMap.getElem?_emptyc]
  rfl

theorem slots_clear (t : Tracker σ) (node other : NodeKey) :
    ({ t with elements := t.elements.modify other fun e => { e with awaited := none } }
      : Tracker σ).slots node = if other = node then (t.classOf node, none) else t.slots node := by
  rw [slots, classOf_clear, awaitedAt_clear]
  split <;> rfl

theorem slots_insert (t : Tracker σ) (node other parent : NodeKey) :
    ({ t with elements := t.elements.insert other { parent := some parent } }
      : Tracker σ).slots node = if other = node then (none, none) else t.slots node := by
  rw [slots, classOf_insert, awaitedAt_insert]
  split <;> rfl

theorem slots_forget (t : Tracker σ) (node other : NodeKey) :
    ({ t with elements := t.elements.forget other } : Tracker σ).slots node =
      if t.elements.Under other node then (none, none) else t.slots node := by
  rw [slots, classOf, awaitedAt, Elements.getElem?_forget]
  split <;> rfl

/-- The slots of an element are what its reports made of them, `f` being what
    compiling makes of an attribute. If the last of them was let pass, it had been
    awaited. -/
structure Remembers (f : String → String) (t : Tracker σ) (node : NodeKey)
    (past : List Report) : Prop where
  compiled_eq : t.compiled = f
  slots_eq : t.slots node = recalled f past
  awaited_eq : ∀ front r, past = front ++ [r] → r.echo = true → (recalled f front).2 = some r.attr

variable {f : String → String} {t after : Tracker σ} {node : NodeKey} {past : List Report}

namespace Remembers

/-- Before the first report both slots are empty. -/
theorem of_slots_empty (hcompiled : t.compiled = f) (hslots : t.slots node = (none, none)) :
    Remembers f t node [] where
  compiled_eq := hcompiled
  slots_eq := hslots
  awaited_eq _ _ hpast :=
    absurd hpast.symm (List.append_ne_nil_of_right_ne_nil _ (List.cons_ne_nil _ _))

/-- What leaves the slots of an element alone is not heard by it. -/
theorem of_slots_eq (h : Remembers f t node past) (hcompiled : after.compiled = t.compiled)
    (hslots : after.slots node = t.slots node) : Remembers f after node past where
  compiled_eq := hcompiled.trans h.compiled_eq
  slots_eq := hslots.trans h.slots_eq
  awaited_eq := h.awaited_eq

/-- One more report is heard if it does to the slots what a report does. -/
theorem concat (h : Remembers f t node past) (r : Report) (hcompiled : after.compiled = t.compiled)
    (hslots : after.slots node = hear f (t.slots node) r)
    (hecho : r.echo = true → t.awaitedAt node = some r.attr) :
    Remembers f after node (past ++ [r]) where
  compiled_eq := hcompiled.trans h.compiled_eq
  slots_eq := by
    rw [hslots, recalled_concat, h.slots_eq]
  awaited_eq front last hpast hlast := by
    rcases List.append_inj' hpast rfl with ⟨hfront, hcons⟩
    have hr := (List.cons.inj hcons).1
    rw [← hr] at hlast ⊢
    rw [← hfront, ← h.slots_eq]
    exact hecho hlast

end Remembers

variable [Stylesheet σ]

/-- The reports on an element since it was last inserted or taken out, after one
    more call. Taking out a node takes out all that lies under it. -/
def lifeAfter (t : Tracker σ) (node : NodeKey) (past : List Report) (call : Call) : List Report :=
  match call with
  | .update (.insertElement _ other _ _) => if other = node then [] else past
  | .update (.removeNode other) => if t.elements.Under other node then [] else past
  | call => past ++ reportsOn node (t.heard call)

/-- The reports on an element since it was last inserted or taken out, after more
    calls. -/
def life (t : Tracker σ) (node : NodeKey) (past : List Report) : List Call → List Report
  | [] => past
  | call :: rest => (t.perform call).value.2.life node (t.lifeAfter node past call) rest

/-- News does to the slots of its element what a report does, and nothing to any
    others. -/
theorem slots_handle (t : Tracker σ) (event : ClassEvent) (node : NodeKey) :
    (t.handle event).value.2.slots node =
      if event.node = node then hear t.compiled (t.slots node) ⟨event.node, event.attr, false⟩
      else t.slots node := by
  rw [slots, classOf_handle, awaitedAt_handle]
  by_cases hnode : event.node = node
  · rw [if_pos hnode, if_pos hnode, hear, if_neg Bool.false_ne_true]
    by_cases hutility : isUtility event.attr = true
    · have hboth : event.node = node ∧ isUtility event.attr = true := ⟨hnode, hutility⟩
      rw [if_pos hutility, if_pos hboth, if_pos hutility]
    · rw [if_neg hutility, if_neg (fun hand => hutility hand.2), if_neg hutility]
      rfl
  · rw [if_neg hnode, if_neg hnode, if_neg (fun hand => hnode hand.1)]
    rfl

/-- News is heard by its element. -/
theorem remembers_handle (h : Remembers f t node past) (event : ClassEvent) :
    Remembers f (t.handle event).value.2 node
      (past ++ reportsOn node [⟨event.node, event.attr, false⟩]) := by
  have hslots := t.slots_handle event node
  rw [h.compiled_eq] at hslots
  rw [reportsOn_singleton]
  by_cases hnode : event.node = node
  · rw [if_pos hnode] at hslots ⊢
    exact h.concat _ (t.compiled_handle event) hslots (fun hecho => absurd hecho Bool.false_ne_true)
  · rw [if_neg hnode] at hslots ⊢
    rw [List.append_nil]
    exact h.of_slots_eq (t.compiled_handle event) hslots

/-- A report is heard by its element, whether it is let pass or taken for news. -/
theorem remembers_report (h : Remembers f t node past) (other : NodeKey) (attr : String) :
    Remembers f (t.report other attr).value node
      (past ++ reportsOn node [⟨other, attr, t.isEcho other attr⟩]) := by
  by_cases hecho : t.awaitedAt other = some attr
  · have hslots := t.slots_clear node other
    rw [report_of_isEcho t other attr hecho, (t.isEcho_iff other attr).2 hecho,
      reportsOn_singleton]
    by_cases hnode : other = node
    · rw [if_pos hnode] at hslots ⊢
      exact h.concat _ rfl hslots (fun _ => by rw [← hnode]; exact hecho)
    · rw [if_neg hnode] at hslots ⊢
      rw [List.append_nil]
      exact h.of_slots_eq rfl hslots
  · have hfalse : t.isEcho other attr = false :=
      Bool.eq_false_iff.2 (fun htrue => hecho ((t.isEcho_iff other attr).1 htrue))
    have hnews := remembers_handle h (t.newsOf other attr)
    rw [newsOf_node, newsOf_attr] at hnews
    rw [report_of_not_isEcho t other attr hecho, hfalse]
    exact hnews

/-- Where nothing is heard of the element, its life is as long as it was. -/
theorem append_reportsOn_nil (node : NodeKey) (past : List Report) :
    past ++ reportsOn node [] = past :=
  List.append_nil past

/-- The elements of a sweep are heard one after the other. -/
theorem remembers_sweep (h : Remembers f t node past) (elements : List (NodeKey × String)) :
    Remembers f (t.sweep elements).value.2 node
      (past ++ reportsOn node (elements.map fun entry => ⟨entry.1, entry.2, false⟩)) := by
  induction elements generalizing t past with
  | nil =>
      rw [List.map_nil, append_reportsOn_nil]
      exact h
  | cons entry rest ih =>
      have hrest := ih (remembers_handle h (.added entry.1 entry.2))
      rw [List.append_assoc, ← reportsOn_append] at hrest
      exact hrest

/-- A call leaves a tracker that remembers the life of the element up to then. -/
theorem remembers_perform (h : Remembers f t node past) (call : Call) :
    Remembers f (t.perform call).value.2 node (t.lifeAfter node past call) := by
  cases call with
  | event e => exact remembers_handle h e
  | sweep elements => exact remembers_sweep h elements
  | take =>
      change Remembers f t.takeOutgoing.2 node (past ++ reportsOn node [])
      rw [append_reportsOn_nil]
      exact h.of_slots_eq rfl rfl
  | update u =>
      cases u with
      -- An element that starts anew or is taken out begins another life.
      | insertElement parent other tag pos =>
          have hslots := t.slots_insert node other parent
          rw [lifeAfter]
          by_cases hnode : other = node
          · rw [if_pos hnode] at hslots ⊢
            exact .of_slots_empty h.compiled_eq hslots
          · rw [if_neg hnode] at hslots ⊢
            exact h.of_slots_eq rfl hslots
      | removeNode other =>
          have hslots := t.slots_forget node other
          rw [lifeAfter]
          by_cases hunder : t.elements.Under other node
          · rw [if_pos hunder] at hslots ⊢
            exact .of_slots_empty h.compiled_eq hslots
          · rw [if_neg hunder] at hslots ⊢
            exact h.of_slots_eq rfl hslots
      | setAttr other name value =>
          change Remembers f (t.follow (.setAttr other name value)).value node
            (past ++ reportsOn node (t.heard (.update (.setAttr other name value))))
          rw [follow, heard]
          by_cases hname : sameCaseless name classAttribute = true
          · rw [if_pos hname, if_pos hname]
            exact remembers_report h other value
          · rw [if_neg hname, if_neg hname, append_reportsOn_nil]
            exact h
      | insertText | endOfDocument =>
          change Remembers f t node (past ++ reportsOn node [])
          rw [append_reportsOn_nil]
          exact h

/-- So does a history. -/
theorem remembers_run (h : Remembers f t node past) (calls : List Call) :
    Remembers f (t.run calls).value.2 node (t.life node past calls) := by
  induction calls generalizing t past with
  | nil => exact h
  | cons call rest ih => exact ih (remembers_perform h call)

/-- After any history, the attribute that is remembered of an element is the last
    one that was reported since the element was inserted or taken out, compiled if
    that report was. The only exception is a report that was let pass right after
    one of another attribute without an underscore. -/
theorem classOf_eq_last_report_iff (sheet : σ) (config : Config) (calls : List Call)
    (node : NodeKey) :
    let t := new sheet config
    let past := t.life node [] calls
    (t.run calls).value.2.classOf node =
        past.getLast?.map (Report.shown fun attr => (t.synthesizer.compile attr).value.1) ↔
      ∀ front plain echo, past = front ++ [plain, echo] → echo.echo = true →
        isUtility plain.attr = false → plain.attr = echo.attr := by
  intro t past
  have h : Remembers t.compiled (t.run calls).value.2 node past :=
    remembers_run (.of_slots_empty rfl (slots_new sheet config node)) calls
  have hclass : (t.run calls).value.2.classOf node = (recalled t.compiled past).1 :=
    congrArg Prod.fst h.slots_eq
  have hcompile : (fun attr => (t.synthesizer.compile attr).value.1) = t.compiled :=
    funext t.value_compile
  rw [hclass, hcompile]
  exact recalled_eq_last_iff t.compiled past h.awaited_eq

/-- A write arrives after the element got another attribute. The tracker lets its
    report pass, and goes on remembering the other one. -/
theorem classOf_late_echo :
    let calls : List Call := [.update (.insertElement .root ⟨1⟩ "div" 0),
      .update (.setAttr ⟨1⟩ "class" "hover:color_red"), .update (.setAttr ⟨1⟩ "class" "plain"),
      .take, .update (.setAttr ⟨1⟩ "class" "color_red")]
    let t := new ({} : MemorySheet) {}
    let past := t.life ⟨1⟩ [] calls
    past = [⟨⟨1⟩, "hover:color_red", false⟩, ⟨⟨1⟩, "plain", false⟩, ⟨⟨1⟩, "color_red", true⟩] ∧
      past.getLast?.map (Report.shown fun attr => (t.synthesizer.compile attr).value.1)
        = some "color_red" ∧
      (t.run calls).value.2.classOf ⟨1⟩ = some "plain" := by
  decide +kernel

end Tracker

end AtomicCss
