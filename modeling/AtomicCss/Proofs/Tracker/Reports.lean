import AtomicCss.Proofs.Tracker.Step

/-!
# The Reports of a History

What a tracker has to show for the class attributes it was told of.

A history is a list of calls, and most of what the calls are about does not matter
for the stylesheet or for the writes that a host is asked for. What does matter is
the class attributes that were told of, in order, and for each whether it was let
pass as the report of the tracker's own write. `story` reads them off a history.

From the story alone follows everything that a tracker gives away. The sheet holds
the rules of the reports that were compiled, and the writes that were handed out,
together with those that still wait, are the results of the same reports where
these differ from what was told. Nothing is lost on the way: a removed element
takes no rule and no write with it, and handing out a batch moves writes and
neither drops nor repeats one.

`Accounts` says of two trackers that some reports make up the whole difference
between them. One news is one such step, accounts that follow on one another can be
joined, and a history is a row of them. The sheet is one in memory, where the rules
can be read back; it has no changes of its own to put in front of a batch.

## Main definitions

* `Report`: A class attribute that was told of.
* `rulesOf`, `writesOf`: The rules and the writes of some reports.
* `Tracker.heard`, `Tracker.story`: The reports in a call and in a history.
* `Tracker.Reply.batch`: The changes that a call handed out.
* `Tracker.Accounts`: Some reports are all that happened.

## Theorems

* `Accounts.trans`: Accounts can be joined.
* `accounts_handle`, `accounts_report`: What news does, and what a report does.
* `accounts_perform`, `accounts_run`: What a call does, and what a history does.
* `rules_and_writes_run`: All that a history leads to.
-/

namespace AtomicCss

open Text

/-- A class attribute that a tracker was told of, and whether it was let pass as the
    report of the tracker's own write. -/
structure Report where
  node : NodeKey
  attr : String
  echo : Bool
  deriving DecidableEq, Repr

/-- A report is compiled if it may hold utility tokens and is not let pass. -/
def Report.isCompiled (r : Report) : Bool :=
  isUtility r.attr && !r.echo

/-- A report leads to a write if it is compiled to something else than was told, `f`
    being what compiling makes of an attribute. -/
def Report.isWritten (f : String → String) (r : Report) : Bool :=
  r.isCompiled && f r.attr != r.attr

/-- The rules of the reports that are compiled, those of a report in the order of
    its tokens. -/
def rulesOf (m : SchemeMatch) (reports : List Report) : List String :=
  (reports.filter Report.isCompiled).flatMap fun r =>
    (directives m r.attr).map Directive.ruleText

/-- The writes of the reports that lead to one. -/
def writesOf (f : String → String) (reports : List Report) : List Update :=
  (reports.filter (Report.isWritten f)).map fun r => .setAttr r.node classAttribute (f r.attr)

theorem rulesOf_append (m : SchemeMatch) (reports more : List Report) :
    rulesOf m (reports ++ more) = rulesOf m reports ++ rulesOf m more := by
  simp only [rulesOf, List.filter_append, List.flatMap_append]

theorem writesOf_append (f : String → String) (reports more : List Report) :
    writesOf f (reports ++ more) = writesOf f reports ++ writesOf f more := by
  simp only [writesOf, List.filter_append, List.map_append]

theorem rulesOf_singleton (m : SchemeMatch) (r : Report) :
    rulesOf m [r] =
      if r.isCompiled = true then (directives m r.attr).map Directive.ruleText else [] := by
  by_cases h : r.isCompiled = true
  · rw [if_pos h, rulesOf, List.filter_cons_of_pos h]
    exact List.append_nil _
  · rw [if_neg h, rulesOf, List.filter_cons_of_neg h]
    rfl

theorem writesOf_singleton (f : String → String) (r : Report) :
    writesOf f [r] =
      if r.isCompiled = true ∧ f r.attr ≠ r.attr then
        [.setAttr r.node classAttribute (f r.attr)]
      else [] := by
  have hiff : r.isWritten f = true ↔ r.isCompiled = true ∧ f r.attr ≠ r.attr := by
    rw [Report.isWritten, Bool.and_eq_true, bne_iff_ne]
  by_cases h : r.isWritten f = true
  · rw [if_pos (hiff.1 h), writesOf, List.filter_cons_of_pos h]
    rfl
  · rw [if_neg (fun hand => h (hiff.2 hand)), writesOf, List.filter_cons_of_neg h]
    rfl

namespace Tracker

/-- The changes that a call handed out. -/
def Reply.batch : Reply → List Update
  | .taken batch => batch
  | .compiled _ | .followed | .swept _ => []

theorem newsOf_node {σ : Type} (t : Tracker σ) (node : NodeKey) (attr : String) :
    (t.newsOf node attr).node = node := by
  unfold newsOf
  split
  · rfl
  · split <;> rfl

/-- Compiling depends on the configuration alone. -/
theorem compiled_of_config_eq {σ : Type} (t other : Tracker σ)
    (h : other.synthesizer.config = t.synthesizer.config) : other.compiled = t.compiled := by
  funext attr
  rw [compiled, compiled, h]

section Story

variable {σ : Type} [Stylesheet σ]

/-- The reports in one call. News is never let pass, whoever tells it. -/
def heard (t : Tracker σ) : Call → List Report
  | .event e => [⟨e.node, e.attr, false⟩]
  | .update (.setAttr node name value) =>
    if sameCaseless name classAttribute then [⟨node, value, t.isEcho node value⟩] else []
  | .update _ | .take => []
  | .sweep elements => elements.map fun entry => ⟨entry.1, entry.2, false⟩

/-- The reports in a history, in order. -/
def story (t : Tracker σ) : List Call → List Report
  | [] => []
  | call :: rest => t.heard call ++ (t.perform call).value.2.story rest

end Story

/-- The reports are all that happened between a tracker and a later one: their rules
    were added to the sheet, and their writes were added to those that waited, of
    which some were handed out. -/
structure Accounts (t after : Tracker MemorySheet) (handed : List Update)
    (reports : List Report) : Prop where
  config : after.synthesizer.config = t.synthesizer.config
  rules : after.sheet.rules.toList =
    t.sheet.rules.toList ++ rulesOf t.synthesizer.config.schemeMatch reports
  writes : handed ++ after.outgoing = t.outgoing ++ writesOf t.compiled reports

namespace Accounts

theorem refl (t : Tracker MemorySheet) : Accounts t t [] [] where
  config := rfl
  rules := (List.append_nil _).symm
  writes := (List.append_nil _).symm

/-- Accounts that follow on one another can be joined. -/
theorem trans {t mid after : Tracker MemorySheet} {handed more : List Update}
    {reports later : List Report} (h : Accounts t mid handed reports)
    (h' : Accounts mid after more later) : Accounts t after (handed ++ more) (reports ++ later) where
  config := h'.config.trans h.config
  rules := by
    rw [h'.rules, h.rules, h.config, rulesOf_append, List.append_assoc]
  writes := by
    rw [List.append_assoc, h'.writes, ← List.append_assoc, h.writes,
      compiled_of_config_eq t mid h.config, writesOf_append, List.append_assoc]

end Accounts

/-- News has to show for itself what its report has. -/
theorem accounts_handle (t : Tracker MemorySheet) (event : ClassEvent) :
    Accounts t (t.handle event).value.2 [] [⟨event.node, event.attr, false⟩] := by
  have hcompiled : (Report.mk event.node event.attr false).isCompiled = isUtility event.attr := by
    rw [Report.isCompiled, Bool.not_false, Bool.and_true]
  -- Whether a write is added is one question on both sides.
  have hwrites : [] ++ (t.handle event).value.2.outgoing =
      t.outgoing ++ writesOf t.compiled [⟨event.node, event.attr, false⟩] := by
    rw [List.nil_append, outgoing_handle, writesOf_singleton, hcompiled]
  by_cases hutility : isUtility event.attr = true
  · have hrules := MemorySheet.rules_appendAll t.sheet
      ((directives t.synthesizer.config.schemeMatch event.attr).map Directive.ruleText)
    rw [handle_of_utility t event hutility] at hwrites ⊢
    refine ⟨rfl, ?_, hwrites⟩
    rw [rulesOf_singleton, if_pos (hcompiled.trans hutility)]
    exact (congrArg Array.toList hrules).trans Array.toList_append
  · rw [handle_of_plain t event (Bool.eq_false_iff.2 hutility)] at hwrites ⊢
    refine ⟨rfl, ?_, hwrites⟩
    rw [rulesOf_singleton, if_neg (fun hpos => hutility (hcompiled.symm.trans hpos)),
      List.append_nil]
    rfl

/-- A report that is let pass has nothing to show, and any other is news. -/
theorem accounts_report (t : Tracker MemorySheet) (node : NodeKey) (attr : String) :
    Accounts t (t.report node attr).value [] [⟨node, attr, t.isEcho node attr⟩] := by
  by_cases hecho : t.awaitedAt node = some attr
  · have hnot : ¬ (Report.mk node attr true).isCompiled = true := by
      rw [Report.isCompiled, Bool.not_true, Bool.and_false]
      exact Bool.false_ne_true
    rw [report_of_isEcho t node attr hecho, (t.isEcho_iff node attr).2 hecho]
    refine ⟨rfl, ?_, ?_⟩
    · rw [rulesOf_singleton, if_neg hnot, List.append_nil]
      rfl
    · rw [writesOf_singleton, if_neg (fun hand => hnot hand.1), List.append_nil]
      rfl
  · have hfalse : t.isEcho node attr = false :=
      Bool.eq_false_iff.2 (fun h => hecho ((t.isEcho_iff node attr).1 h))
    have hnews := t.accounts_handle (t.newsOf node attr)
    rw [newsOf_node, newsOf_attr] at hnews
    rw [report_of_not_isEcho t node attr hecho, hfalse]
    exact hnews

theorem accounts_sweep (t : Tracker MemorySheet) (elements : List (NodeKey × String)) :
    Accounts t (t.sweep elements).value.2 []
      (elements.map fun entry => ⟨entry.1, entry.2, false⟩) := by
  induction elements generalizing t with
  | nil => exact Accounts.refl t
  | cons entry rest ih =>
      exact (t.accounts_handle (.added entry.1 entry.2)).trans
        (ih (t.handle (.added entry.1 entry.2)).value.2)

/-- What a call does. Only taking a batch hands anything out, and it hands out the
    writes that wait. -/
theorem accounts_perform (t : Tracker MemorySheet) (call : Call) :
    Accounts t (t.perform call).value.2 (t.perform call).value.1.batch (t.heard call) := by
  cases call with
  | event e => exact t.accounts_handle e
  | sweep elements => exact t.accounts_sweep elements
  | take => exact ⟨rfl, (List.append_nil _).symm, rfl⟩
  | update u =>
      cases u with
      | setAttr node name value =>
          change Accounts t (t.follow (.setAttr node name value)).value [] _
          rw [follow, heard]
          by_cases hname : sameCaseless name classAttribute = true
          · rw [if_pos hname, if_pos hname]
            exact t.accounts_report node value
          · rw [if_neg hname, if_neg hname]
            exact Accounts.refl t
      | insertElement | insertText | removeNode | endOfDocument =>
          exact ⟨rfl, (List.append_nil _).symm, (List.append_nil _).symm⟩

/-- What a history does. -/
theorem accounts_run (t : Tracker MemorySheet) (calls : List Call) :
    Accounts t (t.run calls).value.2 ((t.run calls).value.1.flatMap Reply.batch)
      (t.story calls) := by
  induction calls generalizing t with
  | nil => exact Accounts.refl t
  | cons call rest ih => exact (t.accounts_perform call).trans (ih (t.perform call).value.2)

/-- All that a history of a tracker with a sheet in memory leads to: the rules of
    the compiled reports, and their writes, whether they were handed out or wait. -/
theorem rules_and_writes_run (config : Config) (calls : List Call) :
    let t := new ({} : MemorySheet) config
    let after := (t.run calls).value
    after.2.sheet.rules.toList = rulesOf config.schemeMatch (t.story calls) ∧
      after.1.flatMap Reply.batch ++ after.2.outgoing =
        writesOf (fun attr => (t.synthesizer.compile attr).value.1) (t.story calls) := by
  intro t after
  have haccounts := t.accounts_run calls
  refine ⟨haccounts.rules, ?_⟩
  rw [funext t.value_compile]
  exact haccounts.writes

end Tracker

end AtomicCss
