import AtomicCss.Proofs.Document.NodeKey
import AtomicCss.Proofs.Stylesheet.Laws

/-!
# Sheets in a Document and in Memory

What a sheet in a document tells is what a sheet in memory holds.

The two kinds of sheets are given the same calls: rules to take, and now and then
the order to hand out what waits. The sheet in memory never has anything to hand
out. The other one hands out pieces of one long story, and where it is cut depends
on when somebody asks. Put together again, with what still waits at the end, the
story is: nothing at all, as long as there was no rule, and else the making of
the element, followed by one text node for each rule in order. The texts are the
rules in memory, at their places.

The invariant is about the story so far, that is, what was told and what waits
(`Spells`). A call to drain moves the border between the two. A rule makes the
element if it is the first, and then adds one text. The key of that text is new,
because its number is the count of rules and the numbers below have been used up
and no others. That is where the bound comes in: the count stops at the largest
number of 32 bits, and from there on a rule would get the key of the one before.

## Main definitions

* `Stylesheet.Call`: What a stylesheet is asked to do.
* `Stylesheet.run`: All updates that a run hands out, and the sheet after.
* `Stylesheet.appended`: The rules in a run.
* `StyleElement.nodeKey`: The keys of a sheet's nodes.
* `StyleElement.story`: What has to be told of a list of rules.
* `StyleElement.Open`, `StyleElement.Spells`: A sheet that has taken a list of rules.

## Theorems

* `MemorySheet.run_eq`: A run in memory.
* `open_ensureNode`: The element is there before a rule is added.
* `open_appendText`: Its text gets a new key.
* `spells_append`, `spells_drain`: What a call does to the story.
* `spells_run`: A run spells the rules that were added.
* `run_refines`: What is told is what is held.
-/

namespace AtomicCss

namespace Stylesheet

/-- What a stylesheet is asked to do. -/
inductive Call
  | append (rule : String)
  | drain
  deriving DecidableEq, Repr

variable {σ : Type} [Stylesheet σ]

/-- One call, behind what was handed out before. -/
def call (told : List Update × σ) : Call → List Update × σ
  | .append rule => (told.1, (Stylesheet.append told.2 rule).value)
  | .drain => (told.1 ++ (Stylesheet.drain told.2).1, (Stylesheet.drain told.2).2)

/-- All updates that a run hands out, in order, and the sheet after the run. -/
def run (sheet : σ) (calls : List Call) : List Update × σ :=
  calls.foldl call ([], sheet)

/-- The rules in a run. -/
def appended (calls : List Call) : List String :=
  calls.filterMap fun
    | .append rule => some rule
    | .drain => none

end Stylesheet

open Stylesheet

/-- In memory a run hands out nothing and keeps the rules. -/
theorem MemorySheet.run_eq (sheet : MemorySheet) (calls : List Call) :
    Stylesheet.run sheet calls = ([], ⟨sheet.rules ++ (appended calls).toArray⟩) := by
  unfold Stylesheet.run
  induction calls generalizing sheet with
  | nil => rw [List.foldl_nil, appended, List.filterMap_nil, Array.append_empty]
  | cons c rest ih =>
      cases c with
      | append rule =>
          have hrest := ih ⟨sheet.rules.push rule⟩
          rw [List.foldl_cons, appended, List.filterMap_cons, List.toArray_cons,
            ← Array.append_assoc, ← Array.push_eq_append]
          exact hrest
      | drain => exact ih sheet

namespace StyleElement

/-- The keys of a sheet's nodes: the element comes first, then its rules in order. -/
def nodeKey (space : KeySpace) (i : Nat) : NodeKey :=
  KeyManager.keyAt space.epoch space.nextShard i

variable (space : KeySpace) (head : NodeKey) (pos : Nat) (config : Config)

/-- The making of the element, and a text node for each rule at its place. -/
def story (rules : List String) : List Update :=
  (new space head pos config).1.creation (nodeKey space 0) ++
    rules.mapIdx fun i rule => .insertText (nodeKey space 0) (nodeKey space (i + 1)) rule i

/-- The sheet has its element and a text node for each of the given rules, and what
    was told and what waits make up the story of them. -/
structure Open (told : List Update) (sheet : StyleElement) (rules : List String) : Prop where
  head_eq : sheet.head = head
  pos_eq : sheet.pos = pos
  id_eq : sheet.id = config.styleElementId
  keys_out : sheet.keys.HandedOut space.epoch space.nextShard (List.range (rules.length + 1))
  node_eq : sheet.node = some (nodeKey space 0)
  ruleCount_eq : sheet.ruleCount = rules.length
  told_eq : told ++ sheet.pending = story space head pos config rules

/-- The sheet has taken the given rules. Without any it is as it was made. -/
def Spells (told : List Update) (sheet : StyleElement) (rules : List String) : Prop :=
  (rules = [] ∧ told = [] ∧ sheet = (new space head pos config).1) ∨
  (rules ≠ [] ∧ Open space head pos config told sheet rules)

/-- Before a rule is added the element is there, whether it was made just now or
    with the first rule. -/
theorem open_ensureNode (told : List Update) (sheet : StyleElement) (rules : List String)
    (h : Spells space head pos config told sheet rules) :
    sheet.ensureNode.value.1 = nodeKey space 0 ∧
      Open space head pos config told sheet.ensureNode.value.2 rules := by
  rcases h with ⟨rfl, rfl, rfl⟩ | ⟨_, hopen⟩
  · -- The first thing that the sheet's own producer names is the element.
    have hnew : (KeyManager.new space.epoch space.nextShard : KeyManager Nat).HandedOut _ _ [] :=
      KeyManager.handedOut_new space.epoch space.nextShard
    have hkey := KeyManager.keyOf_of_not_mem _ _ _ [] 0 hnew List.not_mem_nil
    refine ⟨hkey.1, rfl, rfl, rfl, hkey.2, congrArg some hkey.1, rfl, ?_⟩
    rw [story, List.mapIdx_nil, List.append_nil, ← show _ = nodeKey space 0 from hkey.1]
    rfl
  · rw [sheet.ensureNode_of_some _ hopen.node_eq]
    exact ⟨rfl, hopen⟩

/-- A text node is added under a new key, as long as the count does not stop. -/
theorem open_appendText (told : List Update) (sheet : StyleElement) (rules : List String)
    (rule : String) (hroom : rules.length < maxRuleCount)
    (h : Open space head pos config told sheet rules) :
    Open space head pos config told (sheet.appendText (nodeKey space 0) rule)
      (rules ++ [rule]) := by
  have hcount : min (sheet.ruleCount + 1) maxRuleCount = rules.length + 1 := by
    rw [h.ruleCount_eq]
    omega
  have hlength : (rules ++ [rule]).length = rules.length + 1 := by
    rw [List.length_append, List.length_singleton]
  -- The numbers up to the count have been used, and no others.
  have hkey := KeyManager.keyOf_of_not_mem _ _ _ _ (rules.length + 1) h.keys_out
    (by rw [List.mem_range]; omega)
  rw [List.length_range, ← List.range_succ] at hkey
  refine ⟨h.head_eq, h.pos_eq, h.id_eq, ?_, h.node_eq, ?_, ?_⟩
  · unfold appendText
    dsimp only
    rw [hcount, hlength]
    exact hkey.2
  · rw [hlength]
    exact hcount
  · unfold appendText
    dsimp only
    rw [hcount, hkey.1, h.ruleCount_eq, ← List.append_assoc, h.told_eq, story, story,
      List.mapIdx_concat, List.append_assoc]
    rfl

/-- A rule adds one text to the story. -/
theorem spells_append (told : List Update) (sheet : StyleElement) (rules : List String)
    (rule : String) (hroom : rules.length < maxRuleCount)
    (h : Spells space head pos config told sheet rules) :
    Spells space head pos config told (Stylesheet.append sheet rule).value (rules ++ [rule]) := by
  rcases open_ensureNode space head pos config told sheet rules h with ⟨hnode, hopen⟩
  have hmade : (Stylesheet.append sheet rule).value
      = sheet.ensureNode.value.2.appendText sheet.ensureNode.value.1 rule := rfl
  rw [hmade, hnode]
  exact Or.inr ⟨List.append_ne_nil_of_right_ne_nil _ (List.cons_ne_nil _ _),
    open_appendText space head pos config told _ rules rule hroom hopen⟩

/-- Draining tells what waits and leaves the story as it is. -/
theorem spells_drain (told : List Update) (sheet : StyleElement) (rules : List String)
    (h : Spells space head pos config told sheet rules) :
    Spells space head pos config (told ++ (Stylesheet.drain sheet).1) (Stylesheet.drain sheet).2
      rules := by
  rcases h with ⟨hnone, rfl, rfl⟩ | ⟨hsome, hopen⟩
  · exact Or.inl ⟨hnone, rfl, rfl⟩
  · refine Or.inr ⟨hsome, hopen.head_eq, hopen.pos_eq, hopen.id_eq, hopen.keys_out,
      hopen.node_eq, hopen.ruleCount_eq, ?_⟩
    rw [← hopen.told_eq]
    exact List.append_nil _

/-- A run spells the rules that were added in it, behind those that were there. -/
theorem spells_run (calls : List Call) (told : List Update × StyleElement) (rules : List String)
    (hroom : rules.length + (appended calls).length ≤ maxRuleCount)
    (h : Spells space head pos config told.1 told.2 rules) :
    Spells space head pos config (calls.foldl call told).1 (calls.foldl call told).2
      (rules ++ appended calls) := by
  induction calls generalizing told rules with
  | nil =>
      rw [appended, List.filterMap_nil, List.append_nil]
      exact h
  | cons c rest ih =>
      cases c with
      | append rule =>
          have hcons : appended (.append rule :: rest) = rule :: appended rest := rfl
          have hlength : (rules ++ [rule]).length = rules.length + 1 := by
            rw [List.length_append, List.length_singleton]
          rw [hcons, List.length_cons] at hroom
          rw [hcons, List.append_cons]
          exact ih (call told (.append rule)) (rules ++ [rule]) (by omega)
            (spells_append space head pos config told.1 told.2 rules rule (by omega) h)
      | drain =>
          exact ih (call told .drain) rules hroom
            (spells_drain space head pos config told.1 told.2 rules h)

/-- The keys of the nodes differ, up to the largest number of nodes. -/
theorem nodup_nodeKey (n : Nat) (h : n ≤ maxRuleCount) :
    ((List.range (n + 1)).map (nodeKey space)).Nodup := by
  have hspan : maxRuleCount < NodeKey.counterSpan := by decide
  rw [List.Nodup, List.pairwise_map]
  refine List.Pairwise.imp_of_mem (fun hi hj hne heq => hne ?_) List.nodup_range
  rw [List.mem_range] at hi hj
  exact KeyManager.keyAt_inj _ _ _ _ (by omega) (by omega) heq

/-- What a sheet in a document tells is what a sheet in memory holds. All updates
    handed out in a run and those that wait at its end are none, if there was no
    rule; else they are the making of the element and one text node for each rule of
    the sheet in memory, in order and at its place. No two of the nodes have the
    same key, and the sheet knows its element and the number of its rules. -/
theorem run_refines (calls : List Call) (h : (appended calls).length ≤ maxRuleCount) :
    let told := Stylesheet.run (new space head pos config).1 calls
    let memory := Stylesheet.run (MemorySheet.mk #[]) calls
    let key := nodeKey space
    told.1 ++ told.2.pending =
      (if appended calls = [] then [] else
        .insertElement head (key 0) "style" pos ::
        .setAttr (key 0) "id" config.styleElementId ::
        memory.2.rules.toList.mapIdx fun i rule => .insertText (key 0) (key (i + 1)) rule i) ∧
    memory.1 = [] ∧ memory.2.rules.toList = appended calls ∧
    ((List.range ((appended calls).length + 1)).map key).Nodup ∧
    told.2.node = (if appended calls = [] then none else some (key 0)) ∧
    told.2.ruleCount = (appended calls).length := by
  intro told memory key
  have hmemory : memory = ([], ⟨(appended calls).toArray⟩) := by
    rw [show memory = _ from MemorySheet.run_eq ⟨#[]⟩ calls, Array.empty_append]
  have hspells : Spells space head pos config told.1 told.2 (appended calls) :=
    spells_run space head pos config calls ([], (new space head pos config).1) []
      (by rw [List.length_nil, Nat.zero_add]; exact h) (Or.inl ⟨rfl, rfl, rfl⟩)
  rw [hmemory]
  -- Either no rule was added and nothing was told, or the element is there with its story.
  refine ⟨?_, rfl, rfl, nodup_nodeKey space _ h, ?_⟩
  · rcases hspells with ⟨hnone, htold, hsheet⟩ | ⟨hsome, hopen⟩
    · rw [if_pos hnone, htold, hsheet]
      rfl
    · rw [if_neg hsome, hopen.told_eq]
      rfl
  · rcases hspells with ⟨hnone, _, hsheet⟩ | ⟨hsome, hopen⟩
    · rw [if_pos hnone, hsheet, hnone]
      exact ⟨rfl, rfl⟩
    · rw [if_neg hsome]
      exact ⟨hopen.node_eq, hopen.ruleCount_eq⟩

/-- Two rules with a call to drain between them, and one after. -/
theorem run_refines_two_rules :
    let calls : List Call := [.drain, .append ".a\x7b\x7d", .drain, .append ".b\x7b\x7d"]
    let told := Stylesheet.run (new (KeySpace.ofEpoch 2) NodeKey.root 3 {}).1 calls
    let key := nodeKey (KeySpace.ofEpoch 2)
    (appended calls).length ≤ maxRuleCount ∧
    told.1 ++ told.2.pending =
      [.insertElement NodeKey.root (key 0) "style" 3, .setAttr (key 0) "id" "synxia-style",
        .insertText (key 0) (key 1) ".a\x7b\x7d" 0, .insertText (key 0) (key 2) ".b\x7b\x7d" 1] ∧
    told.1.length = 3 ∧ [key 0, key 1, key 2].Nodup ∧ told.2.ruleCount = 2 := by
  intro calls told key
  have hroom : (appended calls).length ≤ maxRuleCount := by decide
  rcases run_refines (KeySpace.ofEpoch 2) NodeKey.root 3 {} calls hroom with
    ⟨hstory, _, _, hkeys, _, hcount⟩
  exact ⟨hroom, hstory, by decide +kernel, hkeys, hcount⟩

end StyleElement

end AtomicCss
