import AtomicCss.Proofs.Synthesis.Resolution
import AtomicCss.Proofs.Tracker.Echo

/-!
# The Exchange with a Host

Writing back and reporting back comes to an end.

A tracker asks for writes, the host performs and reports them, and each report
may be compiled and lead to another write. If nobody else changed the document,
the two would still be talking to each other, and it has to be shown that they
stop. That the tracker recognises its own writes is not enough for it: a report
can fail to match its slot, and a host may tell of a write as news, which is never
compared with a slot at all.

What ends the exchange is that compiling settles. A write that is reported holds
what the tracker compiled. Compiling it may change it once more, and that result
is written. When it is reported in turn, compiling it changes nothing, whether the
report is let pass or not, and an attribute that stays the same is not written. So
the first round may lead to writes, the second leads to none, and in the third the
host has only the stylesheet's own changes to report, which are none of an
attribute. It does not matter what the attributes were, or which of the reports
were recognised.

`Rewrites` carries the argument. It says of what kind the attributes were whose
compiled forms wait to be written, and a round takes the kind one step further:
from any attribute to a compiled one, and from there to one compiled twice.

## Main definitions

* `Tracker.answer`: How a host reports one update.
* `Tracker.exchange`: One round: the batch is taken and all of it is reported.
* `Tracker.Rewrites`: What waits are compiled attributes of one kind.

## Theorems

* `heard_answers`: Reporting a batch tells of the waiting writes only.
* `kept_rewrites`: Each move asks for writes of what it was told.
* `rewrites_exchange`: A round takes the kind one step further.
* `exchange_settles`: Two rounds are the last with writes.
* `exchange_settles_hyphen`: The first of them can be needed.
-/

namespace AtomicCss

open Text

namespace Tracker

/-- How a host reports one update: as the update that it is, or, where it writes a
    class attribute and the host is `direct`, as news of the element. -/
def answer (direct : Bool) (u : Update) : Call :=
  match u with
  | .setAttr node name value =>
    if direct && sameCaseless name classAttribute then .event (.changed node value) else .update u
  | _ => .update u

variable {σ : Type} [Stylesheet σ]

/-- The reports of the batch that waits, in order. The host may choose anew for
    each update how to report it. -/
def answers (t : Tracker σ) (direct : Nat → Bool) : List Call :=
  t.takeOutgoing.1.mapIdx fun i u => answer (direct i) u

/-- One round: the batch is taken and all of it is reported. -/
def exchange (t : Tracker σ) (direct : Nat → Bool) : Tracker σ :=
  (t.takeOutgoing.2.run (t.answers direct)).value.2

/-- A report tells of an attribute only if the update writes it. -/
theorem eq_setAttr_of_mem_attrs_answer (direct : Bool) (u : Update) (attr : String)
    (h : attr ∈ (answer direct u).attrs) :
    ∃ node name, u = .setAttr node name attr ∧ sameCaseless name classAttribute = true := by
  cases u with
  | setAttr node name value =>
      by_cases hname : sameCaseless name classAttribute = true
      · have hattr : attr ∈ [value] := by
          rw [answer] at h
          by_cases hdirect : direct = true
          · rwa [if_pos (by rw [hdirect, hname]; rfl)] at h
          · rwa [if_neg (fun hand => hdirect (Bool.and_eq_true_iff.1 hand).1), Call.attrs,
              if_pos hname] at h
        rw [List.mem_singleton.1 hattr]
        exact ⟨node, name, rfl, hname⟩
      · rw [answer, if_neg (fun hand => hname (Bool.and_eq_true_iff.1 hand).2), Call.attrs,
          if_neg hname] at h
        exact absurd h List.not_mem_nil
  | _ => exact absurd h List.not_mem_nil

/-- What waits are compiled attributes, `f` being what compiling makes of an
    attribute. Those that were compiled are of a kind, and compiling changed them. -/
structure Rewrites (f : String → String) (kind : String → Prop) (t : Tracker σ) : Prop where
  compiled_eq : ∀ attr, t.compiled attr = f attr
  writes : ∀ u ∈ t.outgoing, ∃ node attr, kind attr ∧ f attr ≠ attr ∧
    u = .setAttr node classAttribute (f attr)

/-- Each move asks for writes of what it was told and of nothing else. -/
theorem kept_rewrites (f : String → String) (kind : String → Prop) :
    Kept (σ := σ) (Rewrites f kind) kind where
  handle t event hkind h := by
    refine ⟨fun attr => by rw [compiled_handle, h.compiled_eq], fun u hu => ?_⟩
    rw [outgoing_handle, h.compiled_eq, List.mem_append, List.mem_ite_nil_right,
      List.mem_singleton] at hu
    -- Only an attribute that compiling changed is written.
    rcases hu with hold | ⟨hboth, hnew⟩
    · exact h.writes u hold
    · exact ⟨event.node, event.attr, hkind, hboth.2, hnew⟩
  clear _ _ _ _ h := ⟨h.compiled_eq, h.writes⟩
  insert _ _ _ h := ⟨h.compiled_eq, h.writes⟩
  forget _ _ h := ⟨h.compiled_eq, h.writes⟩
  take _ h := ⟨h.compiled_eq, fun _ hu => absurd hu List.not_mem_nil⟩

/-- Compiling twice is enough, said of a tracker. -/
theorem compiled_settles (t : Tracker σ) (attr : String) :
    t.compiled (t.compiled (t.compiled attr)) = t.compiled (t.compiled attr) := by
  have hsettles := t.synthesizer.compile_settles attr
  simp only [value_compile] at hsettles
  exact hsettles

variable [LawfulStylesheet σ]

/-- Reporting a batch tells of the waiting writes only. The stylesheet's own
    changes, which are in it too, write no class attribute. -/
theorem heard_answers (t : Tracker σ) (direct : Nat → Bool) (h : t.Tidy) (call : Call)
    (hcall : call ∈ t.answers direct) (attr : String) (hattr : attr ∈ call.attrs) :
    ∃ node, Update.setAttr node classAttribute attr ∈ t.outgoing := by
  rcases List.mem_mapIdx.1 hcall with ⟨i, hi, rfl⟩
  rcases eq_setAttr_of_mem_attrs_answer _ _ attr hattr with ⟨node, name, hu, hname⟩
  have hmem := List.getElem_mem hi
  rw [hu, takeOutgoing, List.mem_append] at hmem
  rcases hmem with hdrained | hwaits
  · have hsilent := LawfulStylesheet.isSilent_drain t.sheet h.sound _ hdrained
    exact absurd (hname.symm.trans hsilent) (by decide)
  · rcases h.writes _ hwaits with ⟨other, value, heq⟩
    cases heq
    exact ⟨node, hwaits⟩

/-- A round takes the kind one step further: what was written is what is compiled
    next. -/
theorem rewrites_exchange (t : Tracker σ) (f : String → String) (kind : String → Prop)
    (direct : Nat → Bool) (htidy : t.Tidy) (h : Rewrites f kind t) :
    Rewrites f (fun attr => ∃ before, kind before ∧ attr = f before) (t.exchange direct) := by
  refine (kept_rewrites f _).run t.takeOutgoing.2 (t.answers direct) ?_
    ⟨h.compiled_eq, fun _ hu => absurd hu List.not_mem_nil⟩
  intro call hcall attr hattr
  rcases t.heard_answers direct htidy call hcall attr hattr with ⟨node, hwaits⟩
  rcases h.writes _ hwaits with ⟨other, before, hkind, _, heq⟩
  exact ⟨before, hkind, (Update.setAttr.inj heq).2.2⟩

theorem tidy_exchange (t : Tracker σ) (direct : Nat → Bool) (h : t.Tidy) :
    (t.exchange direct).Tidy :=
  tidy_run _ _ (kept_tidy.take t h)

/-- If nothing waits to be written, a round leaves the sheet alone and leads to no
    write. -/
theorem exchange_of_outgoing_nil (t : Tracker σ) (direct : Nat → Bool) (h : t.Tidy)
    (hnil : t.outgoing = []) :
    (t.exchange direct).sheet = t.takeOutgoing.2.sheet ∧ (t.exchange direct).outgoing = [] := by
  have hsilent := LawfulStylesheet.isSilent_drain t.sheet h.sound
  have hbatch : t.takeOutgoing.1 = (Stylesheet.drain t.sheet).1 := by
    rw [takeOutgoing, hnil, List.append_nil]
  -- Only a class attribute is reported in two ways, and none is written here.
  have hanswers : t.answers direct = (Stylesheet.drain t.sheet).1.map .update := by
    rw [answers, hbatch, List.mapIdx_eq_iff]
    intro i
    rw [List.getElem?_map]
    cases hget : (Stylesheet.drain t.sheet).1[i]? with
    | none => rfl
    | some u =>
        have hu := hsilent u (List.mem_of_getElem? hget)
        cases u with
        | setAttr node name value =>
            have hname : sameCaseless name classAttribute = false := hu
            rw [Option.map_some, Option.map_some, answer, hname, Bool.and_false]
            rfl
        | _ => rfl
  rcases t.takeOutgoing.2.run_silent _ hsilent with ⟨hsyn, hout, _⟩
  rw [exchange, hanswers]
  exact ⟨congrArg Synthesizer.sheet hsyn, hout⟩

/-- After any history and two rounds, nothing waits to be written. The third round
    leaves the sheet alone, and after it nothing waits at all. -/
theorem exchange_settles (sheet : σ) (config : Config) (calls : List Call)
    (hsheet : LawfulStylesheet.Sound sheet) (direct₁ direct₂ direct₃ : Nat → Bool) :
    let t := ((new sheet config).run calls).value.2
    let second := (t.exchange direct₁).exchange direct₂
    let third := second.exchange direct₃
    second.outgoing = [] ∧ third.sheet = second.takeOutgoing.2.sheet ∧
      third.takeOutgoing.1 = [] := by
  intro t second third
  let f := (new sheet config).compiled
  have htidy : t.Tidy := tidy_run _ calls (tidy_new sheet config hsheet)
  have htidy₁ : (t.exchange direct₁).Tidy := t.tidy_exchange direct₁ htidy
  have htidy₂ : second.Tidy := tidy_exchange _ direct₂ htidy₁
  -- A history tells of any attributes, and two rounds make them compiled twice.
  have hstart : Rewrites f (fun _ => True) t :=
    (kept_rewrites f _).run _ calls (fun _ _ _ _ => trivial)
      ⟨fun _ => rfl, fun _ hu => absurd hu List.not_mem_nil⟩
  have hsecond := rewrites_exchange _ f _ direct₂ htidy₁
    (rewrites_exchange t f _ direct₁ htidy hstart)
  have hnil : second.outgoing = [] := by
    refine List.eq_nil_iff_forall_not_mem.2 (fun u hu => ?_)
    rcases hsecond.writes u hu with ⟨_, value, ⟨once, ⟨attr, _, honce⟩, hvalue⟩, hne, _⟩
    rw [hvalue, honce] at hne
    exact hne ((new sheet config).compiled_settles attr)
  rcases second.exchange_of_outgoing_nil direct₃ htidy₂ hnil with ⟨hsame, hout⟩
  exact ⟨hnil, hsame, (second.takeOutgoing_of_sheet_eq third hsame).trans hout⟩

/-- The write of a property with a hyphen, told as news, leads to another write in
    the first round, and to none in the second. -/
theorem exchange_settles_hyphen :
    let sheet := (StyleElement.new (KeySpace.ofEpoch 1) NodeKey.root 0 {}).1
    let t := ((new sheet {}).run [.event (.changed ⟨1⟩ "background-color_red")]).value.2
    let first := t.exchange fun _ => true
    let second := first.exchange fun _ => true
    let third := second.exchange fun _ => true
    LawfulStylesheet.Sound sheet ∧
      t.outgoing = [.setAttr ⟨1⟩ classAttribute "background__45__color_red"] ∧
      first.outgoing = [.setAttr ⟨1⟩ classAttribute
        "background___95__45__95____95__color__95__red"] ∧
      second.outgoing = [] ∧ third.sheet = second.takeOutgoing.2.sheet ∧
      third.takeOutgoing.1 = [] :=
  have hsound := StyleElement.sound_new (KeySpace.ofEpoch 1) NodeKey.root 0 {}
  ⟨hsound, by decide +kernel, by decide +kernel,
    exchange_settles _ {} [.event (.changed ⟨1⟩ "background-color_red")] hsound _ _ _⟩

end Tracker

end AtomicCss
