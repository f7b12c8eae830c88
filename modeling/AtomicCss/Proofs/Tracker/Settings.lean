import AtomicCss.Proofs.Stylesheet.Refinement
import AtomicCss.Proofs.Tracker.Pairing

/-!
# What a Configuration Decides

Two histories of the same calls under two configurations that read tokens in one way.

Besides the way to match there are two choices, and neither of them reaches the work itself.
The id of the style element is written down when a stylesheet in a document is made, and leaves
it again in a single place: the write of the `id` attribute, when the element is made
(`Update.withId`). So the batches of the two histories are the same but for the value of that
write. It goes to the element that the sheet's own producer names first, and that key depends on
the session only. The record of dropped tokens goes to the log and nowhere else.

The host reports the write of the id like any other, and then the two histories are not even told
the same. It makes no difference, because `id` is not the name of the class attribute in any
letter case, and only reports of that one are looked at.

Three pairings make the comparison. Two of them compare answers and leave the logs open: one for
sheets that are made without a configuration, like those in memory, where the two histories begin
with the same sheet, and one for sheets in a document, where one sheet is the other with a changed
id. The third one compares logs. It runs with and without the record of dropped tokens and asks
that the second log is what the first is without them, for any kind of sheet that does not write
such records itself.

## Main definitions

* `Update.withId`, `Tracker.Call.withId`, `StyleElement.withId`: Another id in its place.
* `Pairing.sameSheet`, `Pairing.document`, `Pairing.hushed`: The three comparisons.

## Theorems

* `StyleElement.ensureNode_withId`, `StyleElement.appendText_withId`: A sheet with another id.
* `run_sameSheet`, `run_document`, `log_run_hushed`: The three comparisons of a history.
* `perform_withId`, `run_withId`: The report of an id is not looked at.
* `runs_agree`: What two configurations may differ in.
-/

namespace AtomicCss

open Text

/-- The update with another value, if it writes the id of the style element. -/
def Update.withId (style : NodeKey) (id : String) (u : Update) : Update :=
  match u with
  | .setAttr node name value =>
    .setAttr node name (if node = style ∧ name = "id" then id else value)
  | .insertElement _ _ _ _ | .insertText _ _ _ _ | .removeNode _ | .endOfDocument => u

/-- The call with another value, if it reports the id of the style element. -/
def Tracker.Call.withId (style : NodeKey) (id : String) : Tracker.Call → Tracker.Call
  | .update u => .update (u.withId style id)
  | call => call

namespace StyleElement

/-- The sheet with another id, also in the updates that wait. -/
def withId (style : NodeKey) (id : String) (sheet : StyleElement) : StyleElement :=
  { sheet with id, pending := sheet.pending.map (Update.withId style id) }

/-- The element is made with the other id, if it is the one whose id is changed. -/
theorem ensureNode_withId (style : NodeKey) (id : String) (sheet : StyleElement)
    (h : sheet.node = none → (sheet.keys.keyOf 0).1 = style) :
    (sheet.withId style id).ensureNode.value =
      (sheet.ensureNode.value.1, sheet.ensureNode.value.2.withId style id) := by
  cases hnode : sheet.node with
  | some node =>
      have hother : (sheet.withId style id).node = some node := hnode
      rw [ensureNode_of_some _ node hother, sheet.ensureNode_of_some node hnode]
      rfl
  | none =>
      have hother : (sheet.withId style id).node = none := hnode
      have hcreation : (sheet.creation (sheet.keys.keyOf 0).1).map (Update.withId style id) =
          (sheet.withId style id).creation (sheet.keys.keyOf 0).1 := by
        change [_, Update.setAttr _ "id" (if _ then id else sheet.id)] = _
        rw [if_pos ⟨h hnode, rfl⟩]
        rfl
      rw [ensureNode_of_none _ hother, sheet.ensureNode_of_none hnode]
      simp only [withId, List.map_append, hcreation]

theorem appendText_withId (style : NodeKey) (id : String) (sheet : StyleElement)
    (parent : NodeKey) (rule : String) :
    (sheet.withId style id).appendText parent rule =
      (sheet.appendText parent rule).withId style id := by
  simp only [appendText, withId, List.map_append]
  rfl

/-- Once a rule was added the element is there. -/
theorem node_append (sheet : StyleElement) (rule : String) :
    (Stylesheet.append sheet rule).value.node ≠ none := by
  rw [value_append]
  change sheet.ensureNode.value.2.node ≠ none
  rw [node_ensureNode]
  exact Option.some_ne_none _

/-- What a sheet logs is the making of its element. -/
theorem isDropped_of_mem_log_append (sheet : StyleElement) (rule : String) (e : Entry)
    (h : e ∈ (Stylesheet.append sheet rule).log) : e.isDropped = false := by
  change e ∈ sheet.ensureNode.log ++ [] at h
  rw [List.append_nil] at h
  -- The text of a rule is not logged, and the element is made once.
  unfold ensureNode at h
  cases hnode : sheet.node with
  | some node =>
      rw [hnode] at h
      exact absurd h List.not_mem_nil
  | none =>
      rw [hnode] at h
      rw [List.mem_singleton.1 h]
      rfl

end StyleElement

namespace Pairing

/-- Two configurations with the same sheet, of a kind that is made without one. -/
def sameSheet {σ : Type} [Stylesheet σ] (config config' : Config)
    (h : config'.schemeMatch = config.schemeMatch) : Pairing σ where
  first := config
  second := config'
  sheets := Eq
  logs _ _ := True
  rename := id
  rename_write _ _ := rfl
  schemeMatch_eq := h
  sheets_append _ _ rule hsame := congrArg (fun s => (Stylesheet.append s rule).value) hsame
  sheets_drain _ _ hsame := by
    rw [hsame, List.map_id]
    exact ⟨rfl, rfl⟩
  logs_nil := trivial
  logs_append _ _ _ _ _ _ := trivial
  logs_record _ _ := trivial
  logs_dropped _ _ := trivial
  logs_rule _ _ _ _ := trivial

/-- Two configurations with sheets in a document that differ in their ids. Until the element is
    there, it is known which key it will have. -/
def document (style : NodeKey) (config config' : Config)
    (h : config'.schemeMatch = config.schemeMatch) : Pairing StyleElement where
  first := config
  second := config'
  sheets s s' := s' = s.withId style config'.styleElementId ∧
    (s.node = none → (s.keys.keyOf 0).1 = style)
  logs _ _ := True
  rename := Update.withId style config'.styleElementId
  rename_write node attr := by
    change Update.setAttr node classAttribute (if _ then _ else attr) = _
    rw [if_neg (fun hand => absurd hand.2 (by decide))]
  schemeMatch_eq := h
  sheets_append s s' rule hsheets := by
    refine ⟨?_, fun hnone => absurd hnone (s.node_append rule)⟩
    rw [hsheets.1, StyleElement.value_append, StyleElement.value_append,
      StyleElement.ensureNode_withId _ _ _ hsheets.2, StyleElement.appendText_withId]
  sheets_drain s s' hsheets := by
    rw [hsheets.1]
    exact ⟨rfl, rfl, hsheets.2⟩
  logs_nil := trivial
  logs_append _ _ _ _ _ _ := trivial
  logs_record _ _ := trivial
  logs_dropped _ _ := trivial
  logs_rule _ _ _ _ := trivial

/-- One configuration with the record of dropped tokens and without it. -/
def hushed {σ : Type} [Stylesheet σ] (config : Config)
    (h : ∀ (s : σ) (rule : String), ∀ e ∈ (Stylesheet.append s rule).log, e.isDropped = false) :
    Pairing σ where
  __ := sameSheet { config with traceDroppedTokens := true }
    { config with traceDroppedTokens := false } rfl
  logs log log' := log' = log.filter fun e => !e.isDropped
  logs_nil := rfl
  logs_append _ _ _ _ hfront hback := by
    rw [List.filter_append, ← hfront, ← hback]
  logs_record e he := by
    rw [List.filter_cons_of_pos, List.filter_nil]
    rw [he, Bool.not_false]
  logs_dropped e he := by
    change [] = [e].filter _
    rw [List.filter_cons_of_neg, List.filter_nil]
    rw [he, Bool.not_true]
    exact Bool.false_ne_true
  logs_rule s s' rule hsame := by
    rw [← hsame]
    refine (List.filter_eq_self.2 fun e he => ?_).symm
    rw [h s rule e he, Bool.not_false]

end Pairing

/-- Corresponding sheets that are given the same calls still correspond. -/
theorem Pairing.sheets_run {σ : Type} [Stylesheet σ] (w : Pairing σ) (sheet sheet' : σ)
    (calls : List Stylesheet.Call) (h : w.sheets sheet sheet') :
    w.sheets (Stylesheet.run sheet calls).2 (Stylesheet.run sheet' calls).2 := by
  have hfold : ∀ told told' : List Update × σ, w.sheets told.2 told'.2 →
      w.sheets (calls.foldl Stylesheet.call told).2 (calls.foldl Stylesheet.call told').2 := by
    induction calls with
    | nil => exact fun _ _ hsheets => hsheets
    | cons call rest ih =>
        intro told told' hsheets
        cases call with
        | append rule => exact ih _ _ (w.sheets_append _ _ rule hsheets)
        | drain => exact ih _ _ (w.sheets_drain _ _ hsheets).2
  exact hfold ([], sheet) ([], sheet') h

namespace Tracker

/-- The report of an id is not looked at, since `id` is no spelling of the class attribute. -/
theorem perform_withId {σ : Type} [Stylesheet σ] (t : Tracker σ) (call : Call) (style : NodeKey)
    (id : String) : t.perform (call.withId style id) = t.perform call := by
  cases call with
  | event | sweep | take => rfl
  | update u =>
      cases u with
      | insertElement | insertText | removeNode | endOfDocument => rfl
      | setAttr node name value =>
          change (fun r => (Reply.followed, r)) <$> t.follow (.setAttr node name _) = _
          by_cases hid : node = style ∧ name = "id"
          · have hname : ¬ sameCaseless name classAttribute = true := by
              rw [hid.2]
              decide
            rw [perform, follow, follow, if_neg hname, if_neg hname]
          · rw [if_neg hid]
            rfl

/-- So a history may report another id in its place. -/
theorem run_withId {σ : Type} [Stylesheet σ] (t : Tracker σ) (calls : List Call)
    (style : NodeKey) (id : String) : t.run (calls.map (Call.withId style id)) = t.run calls := by
  induction calls generalizing t with
  | nil => rfl
  | cons call rest ih =>
      rw [List.map_cons, run, run, perform_withId]
      simp only [ih]

section Comparisons

variable (config config' : Config) (hmatch : config'.schemeMatch = config.schemeMatch)
  (calls : List Call)

include hmatch in
/-- With the same sheet nothing differs. -/
theorem run_sameSheet {σ : Type} [Stylesheet σ] (sheet : σ) :
    let told := ((new sheet config).run calls).value
    let told' := ((new sheet config').run calls).value
    told'.1 = told.1 ∧ (∀ node, told'.2.classOf node = told.2.classOf node) ∧
      told'.2.sheet = told.2.sheet := by
  intro told told'
  have halike := alike_run (abreast_new (Pairing.sameSheet config config' hmatch) sheet sheet rfl)
    calls
  refine ⟨?_, halike.value.2.classOf_eq, halike.value.2.synthesizers.sheet.symm⟩
  have hreplies : told'.1 = told.1.map (Reply.rename id) := halike.value.1
  rw [hreplies, Reply.rename_id, List.map_id]

include hmatch in
/-- With a sheet in a document only the id of its element differs. -/
theorem run_document (space : KeySpace) (head : NodeKey) (pos : Nat)
    (earlier : List Stylesheet.Call) :
    let style := StyleElement.nodeKey space 0
    let fed := (Stylesheet.run (StyleElement.new space head pos config).1 earlier).2
    let fed' := (Stylesheet.run (StyleElement.new space head pos config').1 earlier).2
    let told := ((new fed config).run calls).value
    let told' := ((new fed' config').run calls).value
    told'.1 = told.1.map (Reply.rename (Update.withId style config'.styleElementId)) ∧
      (∀ node, told'.2.classOf node = told.2.classOf node) ∧
      told'.2.sheet = told.2.sheet.withId style config'.styleElementId := by
  intro style fed fed' told told'
  let w := Pairing.document style config config' hmatch
  -- The producer of a new sheet has handed out nothing, so the element gets its first key.
  have hstyle : ((StyleElement.new space head pos config).1.keys.keyOf 0).1 = style :=
    (KeyManager.keyOf_of_not_mem _ _ _ [] 0
      (KeyManager.handedOut_new space.epoch space.nextShard) List.not_mem_nil).1
  have hnew : w.sheets (StyleElement.new space head pos config).1
      (StyleElement.new space head pos config').1 := ⟨rfl, fun _ => hstyle⟩
  have halike := alike_run (abreast_new w fed fed' (w.sheets_run _ _ earlier hnew)) calls
  exact ⟨halike.value.1, halike.value.2.classOf_eq, halike.value.2.synthesizers.sheet.1⟩

/-- Without the record of dropped tokens the log is what it is with it, less those records. -/
theorem log_run_hushed {σ : Type} [Stylesheet σ] (sheet : σ)
    (h : ∀ (s : σ) (rule : String), ∀ e ∈ (Stylesheet.append s rule).log, e.isDropped = false) :
    ((new sheet { config with traceDroppedTokens := false }).run calls).log =
      ((new sheet { config with traceDroppedTokens := true }).run calls).log.filter
        fun e => !e.isDropped :=
  (alike_run (abreast_new (Pairing.hushed config h) sheet sheet rfl) calls).log

end Comparisons

/-- What two configurations may differ in that read tokens in one way, whatever the calls. With
    a sheet in memory all answers are the same, the class attributes, and the rules. With a sheet
    in a document they are the same but for the value of one write, that of the id of the style
    element, in the batches and in what still waits; and if the host reports that write in each
    history with its own value, it makes no difference. The record of dropped tokens decides
    about the records of dropped tokens, and all other records stay in their places. -/
theorem runs_agree (config config' : Config) (hmatch : config'.schemeMatch = config.schemeMatch)
    (calls : List Call) :
    (∀ sheet : MemorySheet,
      let told := ((new sheet config).run calls).value
      let told' := ((new sheet config').run calls).value
      told'.1 = told.1 ∧ (∀ node, told'.2.classOf node = told.2.classOf node) ∧
        told'.2.sheet.rules = told.2.sheet.rules) ∧
    (∀ (space : KeySpace) (head : NodeKey) (pos : Nat) (earlier : List Stylesheet.Call),
      let style := StyleElement.nodeKey space 0
      let fed := (Stylesheet.run (StyleElement.new space head pos config).1 earlier).2
      let fed' := (Stylesheet.run (StyleElement.new space head pos config').1 earlier).2
      let told := ((new fed config).run calls).value
      let told' := ((new fed' config').run calls).value
      told'.1 = told.1.map (Reply.rename (Update.withId style config'.styleElementId)) ∧
        (∀ node, told'.2.classOf node = told.2.classOf node) ∧
        told'.2.sheet = told.2.sheet.withId style config'.styleElementId ∧
        ∀ id, (new fed' config').run (calls.map (Call.withId style id)) =
          (new fed' config').run calls) ∧
    (∀ sheet : MemorySheet,
      ((new sheet { config with traceDroppedTokens := false }).run calls).log =
        ((new sheet { config with traceDroppedTokens := true }).run calls).log.filter
          fun e => !e.isDropped) ∧
    ∀ sheet : StyleElement,
      ((new sheet { config with traceDroppedTokens := false }).run calls).log =
        ((new sheet { config with traceDroppedTokens := true }).run calls).log.filter
          fun e => !e.isDropped := by
  refine ⟨fun sheet => ?_, fun space head pos earlier => ?_, fun sheet => ?_, fun sheet => ?_⟩
  · have hmemory := run_sameSheet config config' hmatch calls sheet
    exact ⟨hmemory.1, hmemory.2.1, congrArg MemorySheet.rules hmemory.2.2⟩
  · have hdocument := run_document config config' hmatch calls space head pos earlier
    exact ⟨hdocument.1, hdocument.2.1, hdocument.2.2, run_withId _ calls _⟩
  · exact log_run_hushed config calls sheet (fun _ _ _ h => absurd h List.not_mem_nil)
  · exact log_run_hushed config calls sheet StyleElement.isDropped_of_mem_log_append

/-- Two ids and two ways to log. The element is new, so its id is written, and reported back by
    the host; one of the two tokens is dropped. -/
theorem runs_agree_two_ids :
    let config : Config := {}
    let config' : Config := { styleElementId := "mine", traceDroppedTokens := false }
    let space := KeySpace.ofEpoch 1
    let style := StyleElement.nodeKey space 0
    let calls : List Call := [.event (.added ⟨9⟩ "hover:color_red plain"), .take,
      .update (.setAttr style "id" "synxia-style")]
    let start' := new (StyleElement.new space ⟨5⟩ 0 config').1 config'
    config'.schemeMatch = config.schemeMatch ∧
    (start'.run calls).value.1 = [.compiled (some "color_red"),
      .taken [.insertElement ⟨5⟩ style "style" 0, .setAttr style "id" "mine",
        .insertText style (StyleElement.nodeKey space 1) ".color_red:hover\x7bcolor:red\x7d" 0,
        .setAttr ⟨9⟩ "class" "color_red"], .followed] ∧
    start'.run (calls.map (Call.withId style "mine")) = start'.run calls ∧
    ((new ({} : MemorySheet) config').run calls).value.2.sheet.rules =
      #[".color_red:hover\x7bcolor:red\x7d"] ∧
    ((new ({} : MemorySheet) { config with traceDroppedTokens := false }).run calls).log.map
      (·.level) = [.trace, .debug] := by
  intro config config' space style calls start'
  rcases runs_agree config config' rfl calls with ⟨hmemory, hdocument, hlog, _⟩
  refine ⟨rfl, ?_, ?_, ?_, ?_⟩
  · refine (hdocument space ⟨5⟩ 0 []).1.trans ?_
    decide +kernel
  · exact (hdocument space ⟨5⟩ 0 []).2.2.2 "mine"
  · rw [(hmemory {}).2.2]
    decide +kernel
  · rw [hlog {}]
    decide +kernel

end Tracker

end AtomicCss
