import AtomicCss.Proofs.Token.ClassName
import AtomicCss.Token.Registers
import Mathlib.Logic.Function.Iterate

/-!
# Stopping the Token Reader

What the machine of registers looks like wherever it is stopped, and that stopping it
changes nothing.

The machine is the reader with its stage taken apart: `Parser.registers` gives the mark
of the stage and the halves that it carries. One step of the reader is one step of the
machine (`registers_step`), so they go side by side for any number of steps, and they
give the same answer at the end (`finish_registers`). The step that needs an argument is
the one with a loop in it. The machine looks for the position of a colon and of an
underscore in each round, the reader cuts once and asks whether the name in front of the
colon is free of underscores.

What the types do not say about the registers is an invariant (`Sound`): the rest is an
end of the token, and the halves are there exactly at two of the marks, on either side
of an underscore of the rest. One step preserves it, so any number of steps do.

The marks themselves follow a schedule. The fourth step decides between a split and a
failure, the fifth only closes a split, and a mark that is terminal stays. So the
machine is at its end with halves or with a reason, and the answer for registers that
have neither is never given.

## Main definitions

* `Stage.mark`, `Stage.halves?`, `Parser.registers`: A stage taken apart.
* `Registers.Sound`: How the registers hang together.

## Theorems

* `Registers.stripChain_eq`: The loop over positions peels the chain.
* `Parser.registers_step`: A step of the reader is a step of the machine.
* `Parser.finish_registers`: Both give the same answer.
* `Registers.sound_step`, `Registers.sound_iterate`: The invariant along a run.
* `Registers.terminal_iff`: When the machine comes to its end.
* `stopped_anywhere`: Stopping the reader changes nothing.
-/

namespace AtomicCss

namespace Token

open Text

theorem suffix_of_breakpoint? (t rest : List Char) (b : Breakpoint)
    (h : breakpoint? t = some (b, rest)) : rest <:+ t := by
  rw [breakpoint?_eq, Option.map_eq_some_iff] at h
  rcases h with ⟨_, _, hpair⟩
  rw [← (Prod.mk.inj hpair).2]
  exact withoutBreakpoint_suffix t

theorem suffix_peelChain (t : List Char) : (peelChain t).2 <:+ t := by
  fun_induction peelChain t with
  | case1 t => exact List.suffix_rfl
  | case2 t name rest hcut _ more ih => exact ih.trans (suffix_of_cutAt ':' t name rest hcut)
  | case3 t => exact List.suffix_rfl

/-- Where a colon stands before the first underscore, the name in front of it is peeled
    off. -/
theorem peelChain_of_before (t : List Char) (hcolon : ':' ∈ t) (hsep : '_' ∈ t)
    (hbefore : t.idxOf ':' < t.idxOf '_') :
    peelChain t =
      (':' :: t.take (t.idxOf ':') ++ (peelChain (t.drop (t.idxOf ':' + 1))).1,
        (peelChain (t.drop (t.idxOf ':' + 1))).2) := by
  have hname : '_' ∉ t.take (t.idxOf ':') := by
    rw [List.mem_take_iff_idxOf_lt hsep]
    omega
  have hparts := eq_take_append_drop ':' t hcolon
  have hrest : '_' ∈ t.drop (t.idxOf ':' + 1) := by
    rw [hparts, List.mem_append, List.mem_cons] at hsep
    rcases hsep with hmem | hmem | hmem
    · exact absurd hmem hname
    · exact absurd hmem (by decide)
    · exact hmem
  conv => lhs; rw [hparts]
  exact peelChain_cons _ _ (not_mem_take_idxOf ':' t) hname hrest

/-- Everywhere else the chain is empty. -/
theorem peelChain_of_not_before (t : List Char)
    (h : ¬ (':' ∈ t ∧ '_' ∈ t ∧ t.idxOf ':' < t.idxOf '_')) : peelChain t = ([], t) := by
  by_cases hsep : '_' ∈ t
  · have hcolon : ':' ∉ t.take (t.idxOf '_') := by
      intro hmem
      have hin := List.mem_of_mem_take hmem
      exact h ⟨hin, hsep, (List.mem_take_iff_idxOf_lt hin).1 hmem⟩
    rw [peelChain_of_mem t hsep, declarationStart_of_no_colon t hcolon]
    rfl
  · exact peelChain_of_not_mem t hsep

/-- The halves of a declaration are not empty. -/
theorem ne_nil_of_splitDeclaration (t property value : List Char)
    (h : splitDeclaration t = .ok (property, value)) : property ≠ [] ∧ value ≠ [] := by
  rcases eq_append_of_splitDeclaration t property value h with ⟨rfl, hfree⟩
  rw [splitDeclaration, cutAt_eq_some_iff.2 ⟨rfl, hfree⟩] at h
  by_cases hp : property = []
  · simp only [List.isEmpty_iff, if_pos hp, reduceCtorEq] at h
  · by_cases hv : value = []
    · simp only [List.isEmpty_iff, if_neg hp, if_pos hv, reduceCtorEq] at h
    · exact ⟨hp, hv⟩

namespace Stage

/-- How far the reader is at a stage. -/
def mark : Stage → Mark
  | start => .start
  | breakpointChecked => .breakpointChecked
  | schemeChecked => .schemeChecked
  | chainChecked => .chainChecked
  | split _ _ => .split
  | done _ _ => .done
  | invalid reason => .invalid reason

/-- The halves that are known at a stage. -/
def halves? : Stage → Option (List Char × List Char)
  | split property value | done property value => some (property, value)
  | _ => none

end Stage

/-- The registers of a reader. -/
def Parser.registers (p : Parser) : Registers :=
  { mark := p.stage.mark
    rest := p.rest
    media := p.media
    selector := p.selector
    halves := p.stage.halves?
    schemeMatch := p.schemeMatch }

namespace Registers

/-- The loop over positions peels the chain off the rest and into the selector. -/
theorem stripChain_eq (r : Registers) :
    r.stripChain =
      { r with
        rest := (peelChain r.rest).2
        selector := r.selector ++ String.ofList (peelChain r.rest).1 } := by
  fun_induction stripChain r with
  | case1 r h ih =>
      rw [ih, peelChain_of_before r.rest h.1 h.2.1 h.2.2]
      have hselector : ∀ name more : List Char,
          r.selector.push ':' ++ String.ofList name ++ String.ofList more =
            r.selector ++ String.ofList (':' :: name ++ more) := by
        intro name more
        rw [← String.toList_inj]
        simp only [String.toList_append, String.toList_push, String.toList_ofList,
          List.append_assoc, List.cons_append, List.nil_append]
      simp only [hselector]
  | case2 r h =>
      rw [peelChain_of_not_before r.rest h]
      simp only [String.ofList_nil, String.append_empty]

/-- The machine stays where it is at its end. -/
theorem step_of_terminal (r : Registers) (h : r.mark.isTerminal = true) : r.step = r := by
  cases r with
  | mk mark rest media selector halves schemeMatch =>
      cases mark with
      | done | invalid => rfl
      | start | breakpointChecked | schemeChecked | chainChecked | split =>
          simp only [Mark.isTerminal, Bool.false_eq_true] at h

/-- Running to the end begins with one step. -/
theorem toEnd_step (r : Registers) : r.step.toEnd = r.toEnd := by
  by_cases h : r.mark.isTerminal = true
  · rw [step_of_terminal r h]
  · conv => rhs; rw [toEnd, if_neg h]

/-- Or with any number of steps. -/
theorem toEnd_iterate (r : Registers) (k : Nat) : (step^[k] r).toEnd = r.toEnd := by
  induction k generalizing r with
  | zero => rfl
  | succ k ih => rw [Function.iterate_succ_apply, ih, toEnd_step]

theorem finish_iterate (r : Registers) (k : Nat) : (step^[k] r).finish = r.finish := by
  rw [finish, toEnd_iterate, finish]

section Schedule

variable (r : Registers)

/-- A machine that is at its end after some steps is there after any more of them. -/
theorem iterate_of_terminal (n k : Nat) (h : (step^[n] r).mark.isTerminal = true) (hle : n ≤ k) :
    step^[k] r = step^[n] r := by
  rcases Nat.exists_eq_add_of_le hle with ⟨d, rfl⟩
  rw [Nat.add_comm, Function.iterate_add_apply]
  exact Function.iterate_fixed (step_of_terminal _ h) d

/-- The step at which the machine comes to its end tells all others. -/
theorem terminal_iff (n : Nat) (hbefore : (step^[n] r).mark.isTerminal = false)
    (hat : (step^[n + 1] r).mark.isTerminal = true) (k : Nat) :
    (step^[k] r).mark.isTerminal = true ↔ n + 1 ≤ k := by
  constructor
  · intro hk
    by_contra hlt
    -- It would have been at its end before, and stayed there.
    rw [iterate_of_terminal r k n hk (by omega), hk] at hbefore
    exact absurd hbefore (by decide)
  · intro hle
    rw [iterate_of_terminal r (n + 1) k hat hle]
    exact hat

/-- So the machine that runs to the end stops there. -/
theorem toEnd_eq_iterate (n : Nat) (h : (step^[n] r).mark.isTerminal = true) :
    r.toEnd = step^[n] r := by
  rw [← toEnd_iterate r n, toEnd, if_pos h]

end Schedule

/-- The step that splits the declaration decides between the two ends. -/
theorem mark_step_of_chainChecked (r : Registers) (h : r.mark = .chainChecked) :
    r.step.mark = .split ∨ ∃ reason, r.step.mark = .invalid reason := by
  simp only [step, h]
  cases splitDeclaration r.rest with
  | ok halves => exact .inl rfl
  | error reason => exact .inr ⟨reason, rfl⟩

/-- How the registers hang together: the rest is an end of the token, and the halves are
    there at two of the marks, on either side of an underscore of the rest. -/
structure Sound (token : List Char) (r : Registers) : Prop where
  rest_suffix : r.rest <:+ token
  halves_iff : r.halves.isSome = true ↔ r.mark = .split ∨ r.mark = .done
  halves_eq : ∀ property value, r.halves = some (property, value) →
    property ≠ [] ∧ value ≠ [] ∧ property ++ '_' :: value = r.rest

section Invariant

variable {token : List Char} {r : Registers}

/-- Before the split there are no halves to care for. -/
theorem sound_of_no_halves (hrest : r.rest <:+ token) (hhalves : r.halves = none)
    (hmark : ¬ (r.mark = .split ∨ r.mark = .done)) : Sound token r where
  rest_suffix := hrest
  halves_iff := by
    simp only [hhalves, Option.isSome_none, Bool.false_eq_true, hmark]
  halves_eq := by
    simp only [hhalves, reduceCtorEq, false_implies, implies_true]

theorem sound_start (m : SchemeMatch) (token : String) : Sound token.toList (start m token) := by
  refine sound_of_no_halves List.suffix_rfl rfl ?_
  simp only [start, reduceCtorEq, or_self, not_false_eq_true]

/-- What only shortens the rest keeps the registers together until the split. -/
theorem Sound.of_keeps (h : Sound token r) (s : Registers)
    (hkeeps : s.rest <:+ r.rest ∧ s.halves = r.halves)
    (hr : ¬ (r.mark = .split ∨ r.mark = .done)) (hs : ¬ (s.mark = .split ∨ s.mark = .done)) :
    Sound token s := by
  have hnone : r.halves = none := by
    rw [← Option.not_isSome_iff_eq_none, h.halves_iff]
    exact hr
  exact sound_of_no_halves (hkeeps.1.trans h.rest_suffix) (hkeeps.2.trans hnone) hs

theorem stripBreakpoint_keeps (r : Registers) :
    r.stripBreakpoint.rest <:+ r.rest ∧ r.stripBreakpoint.halves = r.halves := by
  unfold stripBreakpoint
  split
  · exact ⟨List.suffix_rfl, rfl⟩
  · next b rest hfound => exact ⟨suffix_of_breakpoint? r.rest rest b hfound, rfl⟩

theorem stripScheme_keeps (r : Registers) :
    r.stripScheme.rest <:+ r.rest ∧ r.stripScheme.halves = r.halves := by
  unfold stripScheme
  split
  · exact ⟨List.suffix_rfl, rfl⟩
  · next scheme rest hfound =>
    exact ⟨ColorScheme.suffix_of_detect r.schemeMatch r.rest rest scheme hfound, rfl⟩

theorem stripChain_keeps (r : Registers) :
    r.stripChain.rest <:+ r.rest ∧ r.stripChain.halves = r.halves := by
  rw [stripChain_eq]
  exact ⟨suffix_peelChain r.rest, rfl⟩

/-- One step keeps the registers together. Only the split writes the halves, and it takes
    them from the rest, which no later step moves. -/
theorem sound_step (h : Sound token r) : Sound token r.step := by
  unfold step
  split
  · next hmark =>
    exact h.of_keeps _ r.stripBreakpoint_keeps (by simp [hmark]) (by simp)
  · next hmark =>
    exact h.of_keeps _ r.stripScheme_keeps (by simp [hmark]) (by simp)
  · next hmark =>
    exact h.of_keeps _ r.stripChain_keeps (by simp [hmark]) (by simp)
  · next hmark =>
    split
    · next halves hok =>
      -- The halves are written here, and they are the two sides of the rest.
      rcases ne_nil_of_splitDeclaration r.rest halves.1 halves.2 hok with ⟨hproperty, hvalue⟩
      rcases eq_append_of_splitDeclaration r.rest halves.1 halves.2 hok with ⟨hparts, _⟩
      refine ⟨h.rest_suffix, ?_, ?_⟩
      · simp only [Option.isSome_some, true_or]
      · intro property value heq
        cases heq
        exact ⟨hproperty, hvalue, hparts.symm⟩
    · exact h.of_keeps _ ⟨List.suffix_rfl, rfl⟩ (by simp [hmark]) (by simp)
  · next hmark =>
    refine ⟨h.rest_suffix, ?_, h.halves_eq⟩
    simp only [h.halves_iff, hmark, true_or, or_true]
  · next hmark =>
    refine ⟨h.rest_suffix, ?_, h.halves_eq⟩
    simp only [h.halves_iff, hmark, or_true]
  · next reason hmark =>
    refine ⟨h.rest_suffix, ?_, h.halves_eq⟩
    rw [h.halves_iff, hmark]

/-- And so does any number of steps. -/
theorem sound_iterate (h : Sound token r) (k : Nat) : Sound token (step^[k] r) := by
  induction k generalizing r with
  | zero => exact h
  | succ k ih =>
      rw [Function.iterate_succ_apply]
      exact ih (sound_step h)

end Invariant

/-- The answers of a machine at its end are those of its mark. The third one is for
    registers that do not hang together. -/
theorem answer_of_done (r : Registers) (token : List Char) (h : Sound token r)
    (hmark : r.mark = .done) :
    ∃ property value, r.halves = some (property, value) ∧
      r.answer = .ok {
        property := Escape.decode (String.ofList property)
        value := Escape.decode (String.ofList value)
        media := r.media
        selector := r.selector } := by
  rcases Option.isSome_iff_exists.1 (h.halves_iff.2 (.inr hmark)) with ⟨⟨property, value⟩, hhalves⟩
  refine ⟨property, value, hhalves, ?_⟩
  simp only [answer, hmark, hhalves]

theorem answer_of_invalid (r : Registers) (reason : DropReason) (hmark : r.mark = .invalid reason) :
    r.answer = .error reason := by
  simp only [answer, hmark]

end Registers

namespace Parser

/-- A step of the reader is a step of the machine. -/
theorem registers_step (p : Parser) : p.step.registers = p.registers.step := by
  cases p with
  | mk stage rest media selector schemeMatch =>
      cases stage with
      | start =>
          simp only [step, registers, Registers.step, Stage.mark, Registers.stripBreakpoint]
          cases breakpoint? rest with
          | none => rfl
          | some found => rfl
      | breakpointChecked =>
          simp only [step, registers, Registers.step, Stage.mark, Registers.stripScheme]
          cases ColorScheme.detect schemeMatch rest with
          | none => rfl
          | some found => rfl
      | schemeChecked =>
          -- The loop over positions is the recursion over cuts.
          simp only [step, registers, Registers.step, Stage.mark, Registers.stripChain_eq]
          rfl
      | chainChecked =>
          simp only [step, registers, Registers.step, Stage.mark]
          cases splitDeclaration rest with
          | error reason => rfl
          | ok halves => rfl
      | split | done | invalid => rfl

theorem registers_iterate (p : Parser) (k : Nat) :
    (step^[k] p).registers = Registers.step^[k] p.registers := by
  induction k generalizing p with
  | zero => rfl
  | succ k ih => rw [Function.iterate_succ_apply, ih, registers_step, Function.iterate_succ_apply]

/-- Both give the same answer at the end. The induction goes over the steps that are
    still to be made. -/
theorem finish_registers (p : Parser) : p.registers.finish = p.finish := by
  fun_induction finish p with
  | case1 p property value h =>
      have hend : p.registers.toEnd = p.registers := by
        rw [Registers.toEnd, if_pos (by rw [registers, h]; rfl)]
      rw [Registers.finish, hend]
      simp only [Registers.answer, registers, h, Stage.mark, Stage.halves?]
  | case2 p reason h =>
      have hend : p.registers.toEnd = p.registers := by
        rw [Registers.toEnd, if_pos (by rw [registers, h]; rfl)]
      rw [Registers.finish, hend]
      simp only [Registers.answer, registers, h, Stage.mark]
  | case3 p _ ih | case4 p _ ih | case5 p _ ih | case6 p _ ih | case7 p _ _ _ ih =>
      rw [← ih, registers_step]
      exact (Registers.finish_iterate p.registers 1).symm

end Parser

/-- The reader can be stopped after any number of steps, and going on from there gives the
    directive of the token, or the reason why there is none, as if it had not been stopped.
    Its registers hang together at every stop: the rest is an end of the token, and the
    halves are known from the split on, where they are the rest on both sides of an
    underscore and none of them is empty. It is at its end after five steps with a
    directive, or after four with the reason of the failure, and no further step changes
    anything. So the answer is a directive made from halves that are there, or the reason
    that is in the mark, and never the answer for registers that have neither. -/
theorem stopped_anywhere (m : SchemeMatch) (token : String) :
    let reader k := Parser.step^[k] (Parser.start m token)
    let after k := Registers.step^[k] (Registers.start m token)
    (∀ k,
      (reader k).registers = after k ∧ (reader k).finish = read m token ∧
      (after k).finish = read m token ∧
      (after k).rest <:+ token.toList ∧
      ((after k).halves.isSome = true ↔ (after k).mark = .split ∨ (after k).mark = .done) ∧
      (∀ property value, (after k).halves = some (property, value) →
        property ≠ [] ∧ value ≠ [] ∧ property ++ '_' :: value = (after k).rest)) ∧
    ∃ n,
      (∀ k, ((after k).mark.isTerminal = true ↔ n ≤ k) ∧ (n ≤ k → after k = after n) ∧
        (after k).toEnd = after n) ∧
      ((n = 5 ∧ (after n).mark = .done ∧ ∃ property value,
          (after n).halves = some (property, value) ∧
          read m token = .ok {
            property := Escape.decode (String.ofList property)
            value := Escape.decode (String.ofList value)
            media := (after n).media
            selector := (after n).selector }) ∨
        (n = 4 ∧ ∃ reason, (after n).mark = .invalid reason ∧ read m token = .error reason)) := by
  intro reader after
  have hfinish : ∀ k, (after k).finish = read m token := fun k =>
    (Registers.finish_iterate _ k).trans (Parser.finish_registers (Parser.start m token))
  have hsound : ∀ k, Registers.Sound token.toList (after k) :=
    Registers.sound_iterate (Registers.sound_start m token)
  refine ⟨fun k => ?_, ?_⟩
  · have hregisters : (reader k).registers = after k := Parser.registers_iterate _ k
    refine ⟨hregisters, ?_, hfinish k, (hsound k).rest_suffix, (hsound k).halves_iff,
      (hsound k).halves_eq⟩
    rw [← Parser.finish_registers, hregisters, hfinish]
  · have hsucc : ∀ k, after (k + 1) = (after k).step := fun k => Function.iterate_succ_apply' _ k _
    -- A stop that is the end holds the answer, and it is the one where the machine stays.
    have hend : ∀ n, (after n).mark.isTerminal = true →
        (after n).answer = read m token ∧ (∀ k, n ≤ k → after k = after n) ∧
          ∀ k, (after k).toEnd = after n := by
      intro n hterminal
      have hto := Registers.toEnd_eq_iterate (Registers.start m token) n hterminal
      refine ⟨?_, fun k hle => Registers.iterate_of_terminal _ n k hterminal hle,
        fun k => (Registers.toEnd_iterate _ k).trans hto⟩
      rw [← hfinish 0]
      exact congrArg Registers.answer hto.symm
    have hthird : (after 3).mark = .chainChecked := rfl
    -- The fourth step decides.
    rcases Registers.mark_step_of_chainChecked (after 3) hthird with hsplit | ⟨reason, hinvalid⟩
    · rw [← hsucc] at hsplit
      have hdone : (after 5).mark = .done := by
        rw [hsucc, Registers.step, hsplit]
      rcases hend 5 (by rw [hdone]; rfl) with ⟨hanswer, hstays, hto⟩
      rcases Registers.answer_of_done _ _ (hsound 5) hdone with ⟨property, value, hhalves, hok⟩
      refine ⟨5, fun k => ⟨?_, hstays k, hto k⟩, .inl ⟨rfl, hdone, property, value, hhalves, ?_⟩⟩
      · exact Registers.terminal_iff _ 4 (congrArg Mark.isTerminal hsplit)
          (congrArg Mark.isTerminal hdone) k
      · exact hanswer.symm.trans hok
    · rw [← hsucc] at hinvalid
      rcases hend 4 (by rw [hinvalid]; rfl) with ⟨hanswer, hstays, hto⟩
      refine ⟨4, fun k => ⟨?_, hstays k, hto k⟩, .inr ⟨rfl, reason, hinvalid, ?_⟩⟩
      · exact Registers.terminal_iff _ 3 (congrArg Mark.isTerminal hthird)
          (congrArg Mark.isTerminal hinvalid) k
      · exact hanswer.symm.trans (Registers.answer_of_invalid _ reason hinvalid)

end Token

end AtomicCss
