import AtomicCss.Proofs.Stylesheet.Laws
import AtomicCss.Tracker.Call

/-!
# Single Calls on a Tracker

What each call does to a tracker's sheet, elements and waiting writes.

Every call comes down to a few moves. News about an attribute without an
underscore changes one element. News about any other attribute adds the rules of
its directives to the sheet, changes one element, and lets one write wait, unless
the compiled attribute is the one that was reported. A report that is awaited
clears one slot. The lemmas state these moves with the answer of the compiler
filled in, and later modules work with them and leave the definitions closed.

What holds of all states is shown move by move. `Kept` lists the five moves once,
and what each of them keeps is kept by every history (`Kept.run`), since a call is
nothing but a series of moves. `Tidy` is the first such property: the sheet is
sound, and only writes of the class attribute wait.

## Main definitions

* `Tracker.awaitedAt`: The write whose report an element waits for.
* `Tracker.compiled`: What an attribute compiles to.
* `Tracker.withRules`: A tracker with the rules of an attribute added.
* `Tracker.Call.attrs`: The class attributes that a call tells of.
* `Tracker.Kept`: A property that each move keeps.
* `Tracker.Tidy`: What all states have in common.

## Theorems

* `handle_of_plain`, `handle_of_utility`: The two kinds of news.
* `report_of_isEcho`, `report_of_not_isEcho`: The two kinds of reports.
* `classOf_handle`: What an element's attribute is after news.
* `awaitedAt_handle`, `outgoing_handle`: What news does to the slots and the writes.
* `Kept.run`: What each move keeps, a history keeps.
* `tidy_run`: Every history leads to a tidy tracker.
-/

namespace AtomicCss

open Text

namespace Elements

theorem getElem?_insert (elements : Elements) (node other : NodeKey) (e : Element) :
    (elements.insert node e)[other]? = if node = other then some e else elements[other]? := by
  rw [Std.TreeMap.getElem?_insert]
  by_cases h : node = other
  · rw [if_pos h, if_pos (by rw [h]; exact Std.ReflCmp.compare_self)]
  · rw [if_neg h, if_neg (fun heq => h (Std.LawfulEqCmp.eq_of_compare heq))]

theorem getElem?_modify (elements : Elements) (node other : NodeKey) (f : Element → Element) :
    (elements.modify node f)[other]?
      = if node = other then elements[other]?.map f else elements[other]? := by
  rw [Std.TreeMap.getElem?_modify]
  by_cases h : node = other
  · rw [if_pos h, if_pos (by rw [h]; exact Std.ReflCmp.compare_self), h]
  · rw [if_neg h, if_neg (fun heq => h (Std.LawfulEqCmp.eq_of_compare heq))]

theorem getElem?_erase (elements : Elements) (node key : NodeKey) :
    (elements.erase node)[key]? = if node = key then none else elements[key]? := by
  rw [Std.TreeMap.getElem?_erase]
  by_cases h : node = key
  · rw [if_pos h, if_pos (by rw [h]; exact Std.ReflCmp.compare_self)]
  · rw [if_neg h, if_neg (fun heq => h (Std.LawfulEqCmp.eq_of_compare heq))]

theorem getElem?_eraseAll (elements : Elements) (keys : List NodeKey) (key : NodeKey) :
    (elements.eraseAll keys)[key]? = if key ∈ keys then none else elements[key]? := by
  induction keys generalizing elements with
  | nil => rfl
  | cons first rest ih =>
      rw [eraseAll, ih, getElem?_erase]
      by_cases hrest : key ∈ rest
      · rw [if_pos hrest, if_pos (List.mem_cons_of_mem first hrest)]
      · by_cases hfirst : first = key
        · rw [if_neg hrest, if_pos hfirst, if_pos (List.mem_cons.2 (Or.inl hfirst.symm))]
        · rw [if_neg hrest, if_neg hfirst, if_neg]
          intro hmem
          exact (List.mem_cons.1 hmem).elim (fun heq => hfirst heq.symm) hrest

theorem getElem?_of_erase (elements : Elements) (node key : NodeKey) (e : Element)
    (h : (elements.erase node)[key]? = some e) : elements[key]? = some e := by
  rw [getElem?_erase] at h
  exact (Option.ite_none_left_eq_some.1 h).2

theorem getElem?_of_eraseAll (elements : Elements) (keys : List NodeKey) (key : NodeKey)
    (e : Element) (h : (elements.eraseAll keys)[key]? = some e) : elements[key]? = some e := by
  rw [getElem?_eraseAll] at h
  exact (Option.ite_none_left_eq_some.1 h).2

/-- Forgetting changes no element that it leaves. -/
theorem getElem?_of_forget (elements : Elements) (node key : NodeKey) (e : Element)
    (h : (elements.forget node)[key]? = some e) : elements[key]? = some e := by
  have hbelow : ∀ queue (known : Elements), (known.forgetBelow queue)[key]? = some e →
      known[key]? = some e := by
    intro queue known
    -- The work list and the elements change together, as the search does it.
    fun_induction forgetBelow known queue with
    | case1 known => exact id
    | case2 known first rest ih => exact fun hmem => getElem?_of_eraseAll _ _ _ _ (ih hmem)
  exact getElem?_of_erase elements node key e (hbelow [node] _ h)

end Elements

namespace Tracker

variable {σ : Type}

/-- The write whose report an element waits for. -/
def awaitedAt (t : Tracker σ) (node : NodeKey) : Option String :=
  t.elements[node]?.bind (·.awaited)

theorem isEcho_iff (t : Tracker σ) (node : NodeKey) (attr : String) :
    t.isEcho node attr = true ↔ t.awaitedAt node = some attr := by
  rw [isEcho, awaitedAt, beq_iff_eq]

theorem newsOf_attr (t : Tracker σ) (node : NodeKey) (attr : String) :
    (t.newsOf node attr).attr = attr := by
  unfold newsOf
  split
  · rfl
  · split <;> rfl

/-- Clearing a slot changes no attribute. -/
theorem classOf_clear (t : Tracker σ) (node other : NodeKey) :
    ({ t with elements := t.elements.modify node fun e => { e with awaited := none } }
      : Tracker σ).classOf other = t.classOf other := by
  rw [classOf, classOf, Elements.getElem?_modify]
  split
  · cases t.elements[other]? <;> rfl
  · rfl

/-- Clearing a slot leaves all others. -/
theorem awaitedAt_clear (t : Tracker σ) (node other : NodeKey) :
    ({ t with elements := t.elements.modify node fun e => { e with awaited := none } }
      : Tracker σ).awaitedAt other = if node = other then none else t.awaitedAt other := by
  rw [awaitedAt, Elements.getElem?_modify]
  by_cases h : node = other
  · rw [if_pos h, if_pos h]
    cases t.elements[other]? <;> rfl
  · rw [if_neg h, if_neg h]
    rfl

theorem classOf_insert (t : Tracker σ) (node other parent : NodeKey) :
    ({ t with elements := t.elements.insert node { parent := some parent } }
      : Tracker σ).classOf other = if node = other then none else t.classOf other := by
  rw [classOf, Elements.getElem?_insert]
  split <;> rfl

theorem awaitedAt_insert (t : Tracker σ) (node other parent : NodeKey) :
    ({ t with elements := t.elements.insert node { parent := some parent } }
      : Tracker σ).awaitedAt other = if node = other then none else t.awaitedAt other := by
  rw [awaitedAt, Elements.getElem?_insert]
  split <;> rfl

theorem classOf_of_forget (t : Tracker σ) (node other : NodeKey) (attr : String)
    (h : ({ t with elements := t.elements.forget node } : Tracker σ).classOf other = some attr) :
    t.classOf other = some attr := by
  rcases Option.bind_eq_some_iff.1 h with ⟨e, he, hattr⟩
  exact Option.bind_eq_some_iff.2 ⟨e, Elements.getElem?_of_forget _ node other e he, hattr⟩

variable [Stylesheet σ]

/-- What an attribute compiles to. -/
def compiled (t : Tracker σ) (attr : String) : String :=
  String.intercalate " "
    ((directives t.synthesizer.config.schemeMatch attr).map Directive.className)

theorem value_compile (t : Tracker σ) (attr : String) :
    (t.synthesizer.compile attr).value.1 = t.compiled attr :=
  congrArg Prod.fst (t.synthesizer.compile_value attr)

/-- The tracker with the rules of an attribute added to its sheet. -/
def withRules (t : Tracker σ) (attr : String) : Tracker σ :=
  { t with
    synthesizer := { t.synthesizer with
      sheet := Stylesheet.appendAll t.sheet
        ((directives t.synthesizer.config.schemeMatch attr).map Directive.ruleText) } }

/-- News of an attribute without an underscore changes the one element. -/
theorem handle_of_plain (t : Tracker σ) (event : ClassEvent) (h : isUtility event.attr = false) :
    (t.handle event).value = (none, { t with
      elements := t.elements.insert event.node
        { t.elements.getD event.node {} with attr := some event.attr } }) := by
  unfold handle
  rw [if_neg (by rw [h]; exact Bool.false_ne_true)]
  rfl

/-- News of any other attribute is compiled. -/
theorem handle_of_utility (t : Tracker σ) (event : ClassEvent) (h : isUtility event.attr = true) :
    (t.handle event).value =
      (some (t.compiled event.attr),
        (t.withRules event.attr).settle event (t.compiled event.attr)) := by
  unfold handle
  rw [if_pos h]
  simp only [Logged.value_bind, Logged.value_pure, Synthesizer.compile_value]
  rfl

/-- What the answer to news is depends on the attribute alone. -/
theorem value_handle (t : Tracker σ) (event : ClassEvent) :
    (t.handle event).value.1 =
      if isUtility event.attr = true then some (t.compiled event.attr) else none := by
  by_cases hutility : isUtility event.attr = true
  · rw [handle_of_utility t event hutility, if_pos hutility]
  · rw [handle_of_plain t event (Bool.eq_false_iff.2 hutility), if_neg hutility]

/-- News changes the attribute of its element, and of no other. -/
theorem classOf_handle (t : Tracker σ) (event : ClassEvent) (other : NodeKey) :
    (t.handle event).value.2.classOf other =
      if event.node = other then
        some (if isUtility event.attr = true then t.compiled event.attr else event.attr)
      else t.classOf other := by
  by_cases hutility : isUtility event.attr = true
  · rw [handle_of_utility t event hutility, if_pos hutility, classOf, settle,
      Elements.getElem?_insert]
    split <;> rfl
  · rw [handle_of_plain t event (Bool.eq_false_iff.2 hutility), if_neg hutility, classOf,
      Elements.getElem?_insert]
    split <;> rfl

/-- Compiled news fills the slot of its element if there is something to write, and
    empties it if not. Other news leaves the slot as it is. -/
theorem awaitedAt_handle (t : Tracker σ) (event : ClassEvent) (other : NodeKey) :
    (t.handle event).value.2.awaitedAt other =
      if event.node = other ∧ isUtility event.attr = true then
        if t.compiled event.attr = event.attr then none else some (t.compiled event.attr)
      else t.awaitedAt other := by
  by_cases hutility : isUtility event.attr = true
  · rw [handle_of_utility t event hutility, awaitedAt, settle, Elements.getElem?_insert]
    by_cases hnode : event.node = other
    · have hboth : event.node = other ∧ isUtility event.attr = true := ⟨hnode, hutility⟩
      rw [if_pos hnode, if_pos hboth]
      by_cases hsame : t.compiled event.attr = event.attr
      · rw [if_pos hsame]
        exact if_pos (beq_iff_eq.2 hsame)
      · rw [if_neg hsame]
        exact if_neg (fun hbeq => hsame (beq_iff_eq.1 hbeq))
    · rw [if_neg hnode, if_neg (fun hand => hnode hand.1)]
      rfl
  · rw [if_neg (fun hand => hutility hand.2),
      handle_of_plain t event (Bool.eq_false_iff.2 hutility), awaitedAt, Elements.getElem?_insert]
    by_cases hnode : event.node = other
    · rw [if_pos hnode, awaitedAt, Std.TreeMap.getD_eq_getD_getElem?, hnode]
      cases t.elements[other]? <;> rfl
    · rw [if_neg hnode]
      rfl

/-- Compiled news lets its write wait, if there is something to write. -/
theorem outgoing_handle (t : Tracker σ) (event : ClassEvent) :
    (t.handle event).value.2.outgoing =
      t.outgoing ++
        if isUtility event.attr = true ∧ t.compiled event.attr ≠ event.attr then
          [.setAttr event.node classAttribute (t.compiled event.attr)]
        else [] := by
  by_cases hutility : isUtility event.attr = true
  · rw [handle_of_utility t event hutility]
    by_cases hsame : t.compiled event.attr = event.attr
    · rw [if_neg (fun hand => hand.2 hsame), List.append_nil]
      exact if_pos (beq_iff_eq.2 hsame)
    · rw [if_pos ⟨hutility, hsame⟩]
      exact if_neg (fun hbeq => hsame (beq_iff_eq.1 hbeq))
  · rw [handle_of_plain t event (Bool.eq_false_iff.2 hutility),
      if_neg (fun hand => hutility hand.1), List.append_nil]

/-- News does not change what an attribute compiles to. -/
theorem compiled_handle (t : Tracker σ) (event : ClassEvent) :
    (t.handle event).value.2.compiled = t.compiled := by
  by_cases hutility : isUtility event.attr = true
  · rw [handle_of_utility t event hutility]
    rfl
  · rw [handle_of_plain t event (Bool.eq_false_iff.2 hutility)]
    rfl

/-- The report that is awaited clears the slot. -/
theorem report_of_isEcho (t : Tracker σ) (node : NodeKey) (attr : String)
    (h : t.awaitedAt node = some attr) :
    (t.report node attr).value =
      { t with elements := t.elements.modify node fun e => { e with awaited := none } } := by
  unfold report
  rw [if_pos ((t.isEcho_iff node attr).2 h)]
  rfl

/-- Any other report is news. -/
theorem report_of_not_isEcho (t : Tracker σ) (node : NodeKey) (attr : String)
    (h : t.awaitedAt node ≠ some attr) :
    (t.report node attr).value = (t.handle (t.newsOf node attr)).value.2 := by
  unfold report
  rw [if_neg (fun hecho => h ((t.isEcho_iff node attr).1 hecho))]
  rfl

/-- The class attributes that a call tells of. -/
def Call.attrs : Call → List String
  | .event e => [e.attr]
  | .update (.setAttr _ name value) => if sameCaseless name classAttribute then [value] else []
  | .update _ => []
  | .sweep elements => elements.map (·.2)
  | .take => []

/-- A property that each move keeps, where news is of attributes that may be
    `heard` only. There are five moves, and every call is made of them. -/
structure Kept (P : Tracker σ → Prop) (heard : String → Prop) : Prop where
  handle : ∀ t event, heard event.attr → P t → P (t.handle event).value.2
  clear : ∀ t node attr, t.awaitedAt node = some attr → P t →
    P { t with elements := t.elements.modify node fun e => { e with awaited := none } }
  insert : ∀ t node parent, P t →
    P { t with elements := t.elements.insert node { parent := some parent } }
  forget : ∀ t node, P t → P { t with elements := t.elements.forget node }
  take : ∀ t, P t → P t.takeOutgoing.2

namespace Kept

variable {P : Tracker σ → Prop} {heard : String → Prop}

theorem report (h : Kept P heard) (t : Tracker σ) (node : NodeKey) (attr : String)
    (hattr : heard attr) (ht : P t) : P (t.report node attr).value := by
  by_cases hecho : t.awaitedAt node = some attr
  · rw [report_of_isEcho t node attr hecho]
    exact h.clear t node attr hecho ht
  · rw [report_of_not_isEcho t node attr hecho]
    exact h.handle t _ (by rw [newsOf_attr]; exact hattr) ht

theorem follow (h : Kept P heard) (t : Tracker σ) (u : Update)
    (hattrs : ∀ attr ∈ (Call.update u).attrs, heard attr) (ht : P t) : P (t.follow u).value := by
  cases u with
  | setAttr node name value =>
      rw [Tracker.follow]
      by_cases hname : sameCaseless name classAttribute = true
      · have hmem : value ∈ (Call.update (.setAttr node name value)).attrs := by
          rw [Call.attrs, if_pos hname]
          exact List.mem_singleton_self value
        rw [if_pos hname]
        exact h.report t node value (hattrs value hmem) ht
      · rw [if_neg hname]
        exact ht
  | insertElement parent node tag pos => exact h.insert t node parent ht
  | removeNode node => exact h.forget t node ht
  | insertText | endOfDocument => exact ht

theorem sweep (h : Kept P heard) (t : Tracker σ) (elements : List (NodeKey × String))
    (hattrs : ∀ entry ∈ elements, heard entry.2) (ht : P t) : P (t.sweep elements).value.2 := by
  induction elements generalizing t with
  | nil => exact ht
  | cons entry rest ih =>
      exact ih _ (fun other hmem => hattrs other (List.mem_cons_of_mem entry hmem))
        (h.handle t _ (hattrs entry List.mem_cons_self) ht)

theorem perform (h : Kept P heard) (t : Tracker σ) (call : Call)
    (hattrs : ∀ attr ∈ call.attrs, heard attr) (ht : P t) : P (t.perform call).value.2 := by
  cases call with
  | event e => exact h.handle t e (hattrs e.attr (List.mem_singleton_self _)) ht
  | update u => exact h.follow t u hattrs ht
  | sweep elements =>
      exact h.sweep t elements (fun entry hmem => hattrs entry.2 (List.mem_map_of_mem hmem)) ht
  | take => exact h.take t ht

/-- What each move keeps, a history keeps. -/
theorem run (h : Kept P heard) (t : Tracker σ) (calls : List Call)
    (hattrs : ∀ call ∈ calls, ∀ attr ∈ call.attrs, heard attr) (ht : P t) :
    P (t.run calls).value.2 := by
  induction calls generalizing t with
  | nil => exact ht
  | cons call rest ih =>
      exact ih _ (fun other hmem => hattrs other (List.mem_cons_of_mem call hmem))
        (h.perform t call (hattrs call List.mem_cons_self) ht)

end Kept

/-- What all states have in common: the sheet is sound, and only writes of the
    class attribute wait. -/
structure Tidy [LawfulStylesheet σ] (t : Tracker σ) : Prop where
  sound : LawfulStylesheet.Sound t.sheet
  writes : ∀ u ∈ t.outgoing, ∃ node attr, u = .setAttr node classAttribute attr

variable [LawfulStylesheet σ]

theorem tidy_new (sheet : σ) (config : Config) (h : LawfulStylesheet.Sound sheet) :
    (new sheet config).Tidy :=
  ⟨h, fun _ hu => absurd hu List.not_mem_nil⟩

/-- Compiled news adds rules and at most one write. -/
theorem tidy_handle (t : Tracker σ) (event : ClassEvent) (h : t.Tidy) :
    (t.handle event).value.2.Tidy := by
  constructor
  · by_cases hutility : isUtility event.attr = true
    · rw [handle_of_utility t event hutility]
      exact LawfulStylesheet.sound_appendAll t.sheet _ h.sound
    · rw [handle_of_plain t event (Bool.eq_false_iff.2 hutility)]
      exact h.sound
  · intro u hu
    rw [outgoing_handle, List.mem_append, List.mem_ite_nil_right, List.mem_singleton] at hu
    rcases hu with hold | ⟨_, rfl⟩
    · exact h.writes u hold
    · exact ⟨event.node, _, rfl⟩

theorem kept_tidy : Kept (σ := σ) Tidy fun _ => True where
  handle t event _ h := tidy_handle t event h
  clear _ _ _ _ h := ⟨h.sound, h.writes⟩
  insert _ _ _ h := ⟨h.sound, h.writes⟩
  forget _ _ h := ⟨h.sound, h.writes⟩
  take t h := ⟨LawfulStylesheet.sound_drain t.sheet h.sound, fun _ hu => absurd hu List.not_mem_nil⟩

/-- Every history leads from a tidy tracker to a tidy one. -/
theorem tidy_run (t : Tracker σ) (calls : List Call) (h : t.Tidy) : (t.run calls).value.2.Tidy :=
  kept_tidy.run t calls (fun _ _ _ _ => trivial) h

end Tracker

end AtomicCss
