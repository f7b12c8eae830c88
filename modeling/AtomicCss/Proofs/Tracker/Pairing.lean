import AtomicCss.Proofs.Synthesis.Compile
import AtomicCss.Tracker.Call

/-!
# Two Configurations Side by Side

What has to be shown of two configurations so that they can be run side by side.

A configuration comes into the work in three ways. Tokens are read with it, it decides whether a
dropped token leaves a record, and a stylesheet may have been made with it. Two runs under two
configurations that read tokens in one way take the same decisions all along. What they leave
behind need not be the same: their logs differ in records, their sheets in whatever the sheets
were made with, and their batches in what the sheets tell.

How much of that is to be compared is a choice, and a `Pairing` makes it: which sheets
correspond, which logs do, and which update of the second run stands for one of the first. In
return it has to be shown once, for one rule and one record, that corresponding things stay so.
Then everything that is computed from corresponding beginnings corresponds (`Alike`), function
by function, and in the end so do histories (`alike_run`).

Two trackers go `Abreast` if they know the same of every element and let the same writes wait.
That is what makes them take the same decisions: whether a report is let pass is read off the
elements, and neither a log nor a sheet is ever asked.

A record is known to be that of a dropped token by what it looks like, its level, its origin
and the beginning of its text (`Entry.isDropped`). No other record of a synthesizer or a tracker
looks like that.

## Main definitions

* `Entry.isDropped`: The record of a dropped token.
* `Pairing`: Two configurations, and what corresponds to what.
* `Pairing.Alike`: Two computations with corresponding answers and logs.
* `Pairing.Synthesizers`: Two synthesizers with corresponding sheets.
* `Tracker.Reply.rename`: An answer with the updates of its batch renamed.
* `Tracker.Abreast`: Two trackers that know the same of every element.

## Theorems

* `alike_pure`, `alike_bind`, `alike_map`, `alike_note`: Computations, step by step.
* `alike_resolve`, `alike_resolveAll`, `alike_compile`: Synthesizers, side by side.
* `alike_handle`, `alike_report`, `alike_follow`, `alike_sweep`: News, side by side.
* `abreast_takeOutgoing`: Batches, side by side.
* `alike_perform`, `alike_run`: Calls and histories.
-/

namespace AtomicCss

/-- The record is that of a dropped token. -/
def Entry.isDropped (e : Entry) : Bool :=
  e.level == .trace && e.target == Synthesizer.logTarget &&
    "dropped ".toList.isPrefixOf e.message.toList

/-- Two answers in two parts, compared part by part. -/
def Both {α α' β β' : Type} (A : α → α' → Prop) (B : β → β' → Prop) (x : α × β)
    (y : α' × β') : Prop :=
  A x.1 y.1 ∧ B x.2 y.2

/-- Two configurations to run with side by side. They read tokens in one way. Corresponding
    sheets take the same rule to corresponding sheets, and what the second one hands out is what
    the first one does, renamed. Logs correspond record by record, and those of dropped tokens
    do so where each configuration has its say. -/
structure Pairing (σ : Type) [Stylesheet σ] where
  first : Config
  second : Config
  sheets : σ → σ → Prop
  logs : List Entry → List Entry → Prop
  rename : Update → Update
  rename_write : ∀ node attr,
    rename (.setAttr node classAttribute attr) = .setAttr node classAttribute attr
  schemeMatch_eq : second.schemeMatch = first.schemeMatch
  sheets_append : ∀ s s' rule, sheets s s' →
    sheets (Stylesheet.append s rule).value (Stylesheet.append s' rule).value
  sheets_drain : ∀ s s', sheets s s' →
    (Stylesheet.drain s').1 = (Stylesheet.drain s).1.map rename ∧
      sheets (Stylesheet.drain s).2 (Stylesheet.drain s').2
  logs_nil : logs [] []
  logs_append : ∀ a a' b b', logs a a' → logs b b' → logs (a ++ b) (a' ++ b')
  logs_record : ∀ e, e.isDropped = false → logs [e] [e]
  logs_dropped : ∀ e, e.isDropped = true →
    logs (if first.traceDroppedTokens then [e] else [])
      (if second.traceDroppedTokens then [e] else [])
  logs_rule : ∀ s s' rule, sheets s s' →
    logs (Stylesheet.append s rule).log (Stylesheet.append s' rule).log

namespace Pairing

variable {σ α α' β β' : Type} [Stylesheet σ] {w : Pairing σ}

/-- Two computations side by side: their answers correspond, and so do their logs. -/
structure Alike (w : Pairing σ) (V : α → α' → Prop) (x : Logged α) (y : Logged α') : Prop where
  value : V x.value y.value
  log : w.logs x.log y.log

variable {V : α → α' → Prop} {W : β → β' → Prop} {x : Logged α} {y : Logged α'}

theorem alike_pure {a : α} {a' : α'} (h : V a a') : w.Alike V (pure a) (pure a') :=
  ⟨h, w.logs_nil⟩

theorem alike_bind {f : α → Logged β} {g : α' → Logged β'} (h : w.Alike V x y)
    (hnext : ∀ a a', V a a' → w.Alike W (f a) (g a')) : w.Alike W (x >>= f) (y >>= g) :=
  ⟨(hnext _ _ h.value).value, w.logs_append _ _ _ _ h.log (hnext _ _ h.value).log⟩

theorem alike_map {f : α → β} {g : α' → β'} (h : w.Alike V x y)
    (hmap : ∀ a a', V a a' → W (f a) (g a')) : w.Alike W (f <$> x) (g <$> y) := by
  refine ⟨hmap _ _ h.value, ?_⟩
  rw [Logged.log_map, Logged.log_map]
  exact h.log

/-- Both sides write the same record, and it is not that of a dropped token. -/
theorem alike_note (level : Level) (target message : String)
    (h : Entry.isDropped ⟨level, target, message⟩ = false) :
    w.Alike Eq (note level target message) (note level target message) :=
  ⟨rfl, w.logs_record _ h⟩

/-- Both sides take the same rule. -/
theorem alike_append (s s' : σ) (rule : String) (h : w.sheets s s') :
    w.Alike w.sheets (Stylesheet.append s rule) (Stylesheet.append s' rule) :=
  ⟨w.sheets_append s s' rule h, w.logs_rule s s' rule h⟩

/-- The synthesizers of the two sides. -/
structure Synthesizers (w : Pairing σ) (s s' : Synthesizer σ) : Prop where
  first : s.config = w.first
  second : s'.config = w.second
  sheet : w.sheets s.sheet s'.sheet

end Pairing

namespace Synthesizer

open Pairing

variable {σ : Type} [Stylesheet σ] {w : Pairing σ} {s s' : Synthesizer σ}

theorem isDropped_dropRecord (token : String) (reason : Token.DropReason) :
    (dropRecord token reason).isDropped = true := by
  rw [Entry.isDropped, Bool.and_eq_true]
  refine ⟨rfl, List.isPrefixOf_iff_prefix.2 ?_⟩
  rw [dropRecord]
  simp only [String.toList_append, List.append_assoc]
  exact List.prefix_append _ _

/-- The record of a rule opens with another letter. -/
theorem isDropped_emit (rule : String) :
    Entry.isDropped ⟨.trace, logTarget, "emit " ++ rule⟩ = false := by
  rw [Entry.isDropped, String.toList_append]
  rfl

theorem alike_synthesize (h : w.Synthesizers s s') (d : Directive) :
    w.Alike (Both Eq w.Synthesizers) (s.synthesize d) (s'.synthesize d) := by
  refine alike_bind (alike_note _ _ _ (isDropped_emit d.ruleText)) (fun _ _ _ => ?_)
  refine alike_bind (alike_append _ _ _ h.sheet) (fun sheet sheet' hsheet => ?_)
  exact alike_pure ⟨rfl, h.first, h.second, hsheet⟩

theorem alike_resolve (h : w.Synthesizers s s') (token : String) :
    w.Alike (Both Eq w.Synthesizers) (s.resolve token) (s'.resolve token) := by
  have hmatch : s'.config.schemeMatch = s.config.schemeMatch := by
    rw [h.first, h.second, w.schemeMatch_eq]
  cases hread : Token.read s.config.schemeMatch token with
  | ok d =>
      have hread' := hread
      rw [← hmatch] at hread'
      unfold resolve
      rw [hread, hread']
      refine alike_bind (alike_synthesize h d) (fun made made' hmade => ?_)
      exact alike_pure ⟨congrArg some hmade.1, hmade.2⟩
  | error reason =>
      have hread' := hread
      rw [← hmatch] at hread'
      -- Here alone the two sides may write different records.
      rw [resolve_of_error s token reason hread, resolve_of_error s' token reason hread', h.first,
        h.second]
      exact ⟨⟨rfl, h⟩, w.logs_dropped _ (isDropped_dropRecord token reason)⟩

theorem alike_resolveAll (h : w.Synthesizers s s') (tokens : List String) :
    w.Alike (Both Eq w.Synthesizers) (s.resolveAll tokens) (s'.resolveAll tokens) := by
  induction tokens generalizing s s' with
  | nil => exact alike_pure ⟨rfl, h⟩
  | cons token rest ih =>
      refine alike_bind (alike_resolve h token) (fun one one' hone => ?_)
      refine alike_bind (ih hone.2) (fun more more' hmore => ?_)
      refine alike_pure ⟨?_, hmore.2⟩
      rw [hone.1, hmore.1]

theorem alike_compile (h : w.Synthesizers s s') (attr : String) :
    w.Alike (Both Eq w.Synthesizers) (s.compile attr) (s'.compile attr) := by
  refine alike_bind (alike_resolveAll h _) (fun names names' hnames => ?_)
  exact alike_pure ⟨congrArg (String.intercalate " ") hnames.1, hnames.2⟩

end Synthesizer

namespace Tracker

open Pairing

/-- The answer with the updates of its batch renamed. -/
def Reply.rename (f : Update → Update) : Reply → Reply
  | .taken batch => .taken (batch.map f)
  | reply => reply

theorem Reply.rename_id : Reply.rename id = id := by
  funext reply
  cases reply with
  | taken batch => exact congrArg Reply.taken (List.map_id batch)
  | compiled | followed | swept => rfl

/-- The trackers of the two sides. They know the same of every element. -/
structure Abreast {σ : Type} [Stylesheet σ] (w : Pairing σ) (t t' : Tracker σ) : Prop where
  synthesizers : w.Synthesizers t.synthesizer t'.synthesizer
  elements_eq : t'.elements = t.elements
  outgoing_eq : t'.outgoing = t.outgoing.map w.rename

variable {σ : Type} [Stylesheet σ] {w : Pairing σ} {t t' : Tracker σ}

/-- The two sides begin abreast. -/
theorem abreast_new (w : Pairing σ) (sheet sheet' : σ)
    (h : w.sheets sheet sheet') : Abreast w (new sheet w.first) (new sheet' w.second) :=
  ⟨⟨rfl, rfl, h⟩, rfl, rfl⟩

theorem Abreast.of_elements (h : Abreast w t t') (f : Elements → Elements) :
    Abreast w { t with elements := f t.elements } { t' with elements := f t'.elements } :=
  ⟨h.synthesizers, congrArg f h.elements_eq, h.outgoing_eq⟩

theorem Abreast.classOf_eq (h : Abreast w t t') (node : NodeKey) :
    t'.classOf node = t.classOf node := by
  rw [classOf, classOf, h.elements_eq]

theorem Abreast.settle (h : Abreast w t t') (event : ClassEvent) (compiled : String) :
    Abreast w (t.settle event compiled) (t'.settle event compiled) := by
  refine ⟨h.synthesizers, ?_, ?_⟩
  · simp only [Tracker.settle, h.elements_eq]
  · -- Both sides ask for the same write or for none, and a write of a class is not renamed.
    simp only [Tracker.settle, h.outgoing_eq]
    split
    · rfl
    · rw [List.map_append, List.map_singleton, w.rename_write]

theorem alike_handle (h : Abreast w t t') (event : ClassEvent) :
    w.Alike (Both Eq (Abreast w)) (t.handle event) (t'.handle event) := by
  unfold handle
  by_cases hutility : isUtility event.attr = true
  · rw [if_pos hutility, if_pos hutility]
    refine alike_bind (Synthesizer.alike_compile h.synthesizers event.attr) ?_
    -- The compiled attribute is the same, so it is settled in the same way.
    rintro ⟨compiled, s⟩ ⟨_, s'⟩ ⟨rfl, hs⟩
    have hmid : Abreast w { t with synthesizer := s } { t' with synthesizer := s' } :=
      ⟨hs, h.elements_eq, h.outgoing_eq⟩
    refine alike_bind (alike_note _ _ _ rfl) (fun _ _ _ => ?_)
    exact alike_pure ⟨rfl, hmid.settle event compiled⟩
  · rw [if_neg hutility, if_neg hutility]
    refine alike_pure ⟨rfl, h.synthesizers, ?_, h.outgoing_eq⟩
    simp only [h.elements_eq]

/-- Whether a report is let pass, and what it is news of, is decided by the elements. -/
theorem alike_report (h : Abreast w t t') (node : NodeKey) (attr : String) :
    w.Alike (Abreast w) (t.report node attr) (t'.report node attr) := by
  have hecho : t'.isEcho node attr = t.isEcho node attr := by
    rw [isEcho, isEcho, h.elements_eq]
  have hnews : t'.newsOf node attr = t.newsOf node attr := by
    rw [newsOf, newsOf, h.elements_eq]
  unfold report
  rw [hecho, hnews]
  split
  · exact alike_pure (h.of_elements fun known => known.modify node fun e =>
      { e with awaited := none })
  · exact alike_map (alike_handle h _) (fun _ _ hboth => hboth.2)

theorem alike_follow (h : Abreast w t t') (u : Update) :
    w.Alike (Abreast w) (t.follow u) (t'.follow u) := by
  cases u with
  | setAttr node name value =>
      rw [follow, follow]
      split
      · exact alike_report h node value
      · exact alike_pure h
  | insertElement parent node tag pos =>
      exact alike_pure (h.of_elements fun known => known.insert node { parent := some parent })
  | removeNode node => exact alike_pure (h.of_elements fun known => known.forget node)
  | insertText | endOfDocument => exact alike_pure h

theorem alike_sweep (h : Abreast w t t') (elements : List (NodeKey × String)) :
    w.Alike (Both Eq (Abreast w)) (t.sweep elements) (t'.sweep elements) := by
  induction elements generalizing t t' with
  | nil => exact alike_pure ⟨rfl, h⟩
  | cons entry rest ih =>
      refine alike_bind (alike_handle h (.added entry.1 entry.2)) (fun one one' hone => ?_)
      refine alike_bind (ih hone.2) (fun more more' hmore => ?_)
      refine alike_pure ⟨?_, hmore.2⟩
      rw [hone.1, hmore.1]

/-- The changes of the sheets come first, and then the writes, on both sides. -/
theorem abreast_takeOutgoing (h : Abreast w t t') :
    t'.takeOutgoing.1 = t.takeOutgoing.1.map w.rename ∧
      Abreast w t.takeOutgoing.2 t'.takeOutgoing.2 := by
  have hdrain := w.sheets_drain _ _ h.synthesizers.sheet
  constructor
  · rw [takeOutgoing, takeOutgoing, List.map_append, h.outgoing_eq]
    exact congrArg (· ++ t.outgoing.map w.rename) hdrain.1
  · exact ⟨⟨h.synthesizers.first, h.synthesizers.second, hdrain.2⟩, h.elements_eq, rfl⟩

/-- A call is answered alike, and a batch that is taken is the other one renamed. -/
theorem alike_perform (h : Abreast w t t') (call : Call) :
    w.Alike (Both (fun reply reply' => reply' = reply.rename w.rename) (Abreast w))
      (t.perform call) (t'.perform call) := by
  cases call with
  | event e =>
      refine alike_map (alike_handle h e) (fun r r' hr => ⟨?_, hr.2⟩)
      rw [hr.1]
      rfl
  | update u => exact alike_map (alike_follow h u) (fun _ _ hr => ⟨rfl, hr⟩)
  | sweep elements =>
      refine alike_map (alike_sweep h elements) (fun r r' hr => ⟨?_, hr.2⟩)
      rw [hr.1]
      rfl
  | take =>
      have htake := abreast_takeOutgoing h
      exact alike_pure ⟨congrArg Reply.taken htake.1, htake.2⟩

/-- A history under one configuration and the same history under the other. The induction is
    on the calls, and each call finds the trackers abreast. -/
theorem alike_run (h : Abreast w t t') (calls : List Call) :
    w.Alike (Both (fun replies replies' => replies' = replies.map (Reply.rename w.rename))
      (Abreast w)) (t.run calls) (t'.run calls) := by
  induction calls generalizing t t' with
  | nil => exact alike_pure ⟨rfl, h⟩
  | cons call rest ih =>
      refine alike_bind (alike_perform h call) (fun one one' hone => ?_)
      refine alike_bind (ih hone.2) (fun more more' hmore => ?_)
      refine alike_pure ⟨?_, hmore.2⟩
      rw [hone.1, hmore.1]
      rfl

end Tracker

end AtomicCss
