import AtomicCss.Proofs.Media.Detection
import AtomicCss.Token

/-!
# The Grammar of Utility Tokens

What the token reader computes, said without its stages.

The reader is a machine that takes one part after the other off the front of a
token, and one of its steps is a loop. What it decides has a closed form all the
same, because only first and last positions matter. Take the breakpoint off, if
the text before the first `@` is the name of one. Take the scheme off, if one is
detected. Of what is left, the first underscore ends the property, and the last
colon before it begins the property. Everything before that colon is the chain of
pseudo-classes, colons included, with one colon put in front.

`read_iff` states this as four equivalences, one for each answer the reader can
give. They exclude each other and leave nothing out, so every token gets exactly
one answer, and it is known which.

The loop is the only part that needs an induction. `declarationStart` is the
position behind the last colon before the first underscore, and taking one name
and its colon off the front of a text moves that position by as much as was taken
off (`declarationStart_append`). That is the loop's invariant: the beginning of
the property stays where it is while the reader walks towards it.

## Main definitions

* `namedBreakpoint`, `withoutBreakpoint`: The breakpoint of a token, and the rest.
* `scope`, `withoutScope`: The condition of a token, and the rest.
* `declarationStart`: Where the property begins.
* `declared`: The directive between these positions.

## Theorems

* `declarationStart_append`: A name in front moves the property by its length.
* `peelChain_of_mem`: The loop stops where the property begins.
* `Parser.finish_step`: Running to the end begins with one step.
* `withoutScope_suffix`: What is left without the scope is an end of the token.
* `read_eq`: The reader as a composition of its parts.
* `read_iff`: The four answers and when they are given.
-/

namespace AtomicCss

namespace Token

open Text

/-- The breakpoint that a token names in front of its first `@`. -/
def namedBreakpoint (token : List Char) : Option Breakpoint :=
  if '@' ∈ token then Breakpoint.ofName? (String.ofList (token.take (token.idxOf '@'))) else none

/-- The token behind its first `@`, if that ends the name of a breakpoint, and
    the whole token otherwise. -/
def withoutBreakpoint (token : List Char) : List Char :=
  if (namedBreakpoint token).isSome then token.drop (token.idxOf '@' + 1) else token

/-- What is left of a token without its breakpoint and its scheme. -/
def withoutScope (m : SchemeMatch) (token : List Char) : List Char :=
  match ColorScheme.detect m (withoutBreakpoint token) with
  | some (_, rest) => rest
  | none => withoutBreakpoint token

/-- The condition of a token: its scheme, else its breakpoint, else none. -/
def scope (m : SchemeMatch) (token : List Char) : Option Condition :=
  match ColorScheme.detect m (withoutBreakpoint token) with
  | some (scheme, _) => some (.colorScheme scheme)
  | none => (namedBreakpoint token).map .breakpoint

/-- The position right behind the last colon before the first underscore, zero if
    no colon stands there. Counted from the underscore, the last colon is the
    first one backwards. -/
def declarationStart (t : List Char) : Nat :=
  t.idxOf '_' - (t.take (t.idxOf '_')).reverse.idxOf ':'

/-- The directive of a token that has one, cut out between the positions. -/
def declared (m : SchemeMatch) (token : List Char) : Directive :=
  let t := withoutScope m token
  let u := t.idxOf '_'
  let c := declarationStart t
  { property := Escape.decode (String.ofList ((t.take u).drop c))
    value := Escape.decode (String.ofList (t.drop (u + 1)))
    media := scope m token
    selector := if c = 0 then "" else String.ofList (':' :: t.take (c - 1)) }

theorem breakpoint?_eq (token : List Char) :
    breakpoint? token = (namedBreakpoint token).map fun b => (b, withoutBreakpoint token) := by
  unfold breakpoint? withoutBreakpoint namedBreakpoint
  by_cases h : '@' ∈ token
  · rw [cutAt_of_mem '@' token h, if_pos h]
    cases hname : Breakpoint.ofName? (String.ofList (token.take (token.idxOf '@'))) with
    | none => simp only [hname, Option.map_none]
    | some b => simp only [hname, Option.map_some, Option.isSome_some, if_true]
  · rw [cutAt_of_not_mem '@' token h, if_neg h, Option.map_none]

theorem withoutBreakpoint_suffix (token : List Char) : withoutBreakpoint token <:+ token := by
  rw [withoutBreakpoint]
  split
  · exact List.drop_suffix _ token
  · exact List.suffix_rfl

/-- What is left of a token without its breakpoint and its scheme is an end of it. -/
theorem withoutScope_suffix (m : SchemeMatch) (token : List Char) :
    withoutScope m token <:+ token := by
  rw [withoutScope]
  split
  · next scheme rest hfound =>
    exact (ColorScheme.suffix_of_detect m _ rest scheme hfound).trans
      (withoutBreakpoint_suffix token)
  · exact withoutBreakpoint_suffix token

theorem declarationStart_le (t : List Char) : declarationStart t ≤ t.idxOf '_' :=
  Nat.sub_le _ _

theorem length_take_idxOf (t : List Char) : (t.take (t.idxOf '_')).length = t.idxOf '_' :=
  List.length_take_of_le List.idxOf_le_length

theorem declarationStart_of_no_colon (t : List Char) (h : ':' ∉ t.take (t.idxOf '_')) :
    declarationStart t = 0 := by
  have hback : (t.take (t.idxOf '_')).reverse.idxOf ':' = t.idxOf '_' := by
    rw [List.idxOf_eq_length (fun hmem => h (List.mem_reverse.1 hmem)), List.length_reverse,
      length_take_idxOf]
  rw [declarationStart, hback, Nat.sub_self]

/-- A name in front, its colon included, moves the property by its length. If the
    text behind has a colon of its own before the underscore, that one stays the
    last; if not, the colon in front is the last, and the property begins with
    the text behind. -/
theorem declarationStart_append (name rest : List Char) (hname : '_' ∉ name) :
    declarationStart (name ++ ':' :: rest) = name.length + 1 + declarationStart rest := by
  have hidx : (name ++ ':' :: rest).idxOf '_' = name.length + 1 + rest.idxOf '_' := by
    rw [List.idxOf_append_of_notMem hname, List.idxOf_cons_ne _ (by decide)]
    omega
  have htake : (name ++ ':' :: rest).take (name.length + 1 + rest.idxOf '_')
      = name ++ ':' :: rest.take (rest.idxOf '_') := by
    rw [Nat.add_assoc, List.take_length_add_append, Nat.add_comm 1, List.take_succ_cons]
  -- Backwards, the colon in front is met after every colon behind it.
  have hback : (name ++ ':' :: rest.take (rest.idxOf '_')).reverse.idxOf ':'
      = (rest.take (rest.idxOf '_')).reverse.idxOf ':' := by
    rw [List.reverse_append, List.reverse_cons, List.append_assoc]
    by_cases hmem : ':' ∈ (rest.take (rest.idxOf '_')).reverse
    · rw [List.idxOf_append_of_mem hmem]
    · rw [List.idxOf_append_of_notMem hmem, List.singleton_append, List.idxOf_cons_self,
        List.idxOf_eq_length hmem, Nat.add_zero]
  have hle : (rest.take (rest.idxOf '_')).reverse.idxOf ':' ≤ rest.idxOf '_' := by
    have := List.idxOf_le_length (l := (rest.take (rest.idxOf '_')).reverse) (a := ':')
    rwa [List.length_reverse, length_take_idxOf] at this
  rw [declarationStart, declarationStart, hidx, htake, hback]
  omega

theorem peelChain_of_not_mem (t : List Char) (h : '_' ∉ t) : peelChain t = ([], t) := by
  rw [peelChain]
  split
  · rfl
  · next name rest hcut =>
    have hrest : '_' ∉ rest := by
      rw [(cutAt_eq_some_iff.1 hcut).1, List.mem_append, List.mem_cons] at h
      exact fun hmem => h (Or.inr (Or.inr hmem))
    rw [if_neg (fun hboth => hrest hboth.2)]

/-- One pseudo-class is taken off in front of a text with an underscore. -/
theorem peelChain_cons (name rest : List Char) (hcolon : ':' ∉ name) (hname : '_' ∉ name)
    (hrest : '_' ∈ rest) :
    peelChain (name ++ ':' :: rest) = (':' :: name ++ (peelChain rest).1, (peelChain rest).2) := by
  rw [peelChain]
  split
  · next hcut =>
    rw [cutAt_eq_some_iff.2 ⟨rfl, hcolon⟩] at hcut
    exact absurd hcut (by simp only [reduceCtorEq, not_false_eq_true])
  · next before after hcut =>
    rw [cutAt_eq_some_iff.2 ⟨rfl, hcolon⟩, Option.some.injEq, Prod.mk.injEq] at hcut
    rw [← hcut.1, ← hcut.2, if_pos ⟨hname, hrest⟩]

/-- The loop stops where the property begins, having peeled off what stands in
    front of the last colon. The induction follows the loop: one name less. -/
theorem peelChain_of_mem (t : List Char) (h : '_' ∈ t) :
    peelChain t = (if declarationStart t = 0 then [] else ':' :: t.take (declarationStart t - 1),
      t.drop (declarationStart t)) := by
  fun_induction peelChain t with
  | case1 t hcut =>
      have hcolon : ':' ∉ t := cutAt_eq_none_iff.1 hcut
      rw [declarationStart_of_no_colon t (fun hmem => hcolon (List.mem_of_mem_take hmem))]
      rfl
  | case2 t name rest hcut hboth more ih =>
      have hmore : more = _ := ih hboth.2
      have hdrop : (name ++ ':' :: rest).drop (name.length + 1 + declarationStart rest)
          = rest.drop (declarationStart rest) := by
        rw [Nat.add_assoc, List.drop_length_add_append, Nat.add_comm 1, List.drop_succ_cons]
      have htake : (name ++ ':' :: rest).take (name.length + 1 + declarationStart rest - 1)
          = name ++ more.1 := by
        rw [show name.length + 1 + declarationStart rest - 1 = name.length + declarationStart rest
          by omega, List.take_length_add_append, hmore]
        cases declarationStart rest with
        | zero => rfl
        | succ k => rfl
      rw [(cutAt_eq_some_iff.1 hcut).1, declarationStart_append name rest hboth.1,
        if_neg (by omega), hdrop, htake, hmore]
      rfl
  | case3 t name rest hcut hboth =>
      -- The underscore stands before the first colon, so no colon counts.
      have hname : '_' ∈ name := by
        rw [(cutAt_eq_some_iff.1 hcut).1, List.mem_append, List.mem_cons] at h
        by_contra hnot
        rcases h with hmem | hmem | hmem
        · exact hnot hmem
        · exact absurd hmem (by decide)
        · exact hboth ⟨hnot, hmem⟩
      have hcolon : ':' ∉ t.take (t.idxOf '_') := by
        intro hmem
        rw [(cutAt_eq_some_iff.1 hcut).1, List.idxOf_append_of_mem hname,
          List.take_append_of_le_length (Nat.le_of_lt (List.idxOf_lt_length_of_mem hname))] at hmem
        exact (cutAt_eq_some_iff.1 hcut).2 (List.mem_of_mem_take hmem)
      rw [declarationStart_of_no_colon t hcolon]
      rfl

theorem splitDeclaration_of_not_mem (t : List Char) (h : '_' ∉ t) :
    splitDeclaration t = .error .missingSeparator := by
  rw [splitDeclaration, cutAt_of_not_mem '_' t h]

/-- Taking the chain off does not move the underscore, so the halves are the
    pieces of the text on either side of it. -/
theorem splitDeclaration_drop (t : List Char) (h : '_' ∈ t) :
    splitDeclaration (t.drop (declarationStart t)) =
      if declarationStart t = t.idxOf '_' then .error .emptyProperty
      else if t.idxOf '_' + 1 = t.length then .error .emptyValue
      else .ok ((t.take (t.idxOf '_')).drop (declarationStart t), t.drop (t.idxOf '_' + 1)) := by
  have hle := declarationStart_le t
  have hlt := List.idxOf_lt_length_of_mem h
  have hcut : cutAt '_' (t.drop (declarationStart t)) =
      some ((t.take (t.idxOf '_')).drop (declarationStart t), t.drop (t.idxOf '_' + 1)) := by
    refine cutAt_eq_some_iff.2 ⟨?_, ?_⟩
    · have hdrop := congrArg (List.drop (declarationStart t)) (eq_take_append_drop '_' t h)
      rw [hdrop, List.drop_append_of_le_length (by rw [length_take_idxOf]; exact hle)]
    · exact fun hmem => not_mem_take_idxOf '_' t (List.mem_of_mem_drop hmem)
  have hproperty : ((t.take (t.idxOf '_')).drop (declarationStart t)).isEmpty = true
      ↔ declarationStart t = t.idxOf '_' := by
    rw [List.isEmpty_iff, List.drop_eq_nil_iff, length_take_idxOf]
    omega
  have hvalue : (t.drop (t.idxOf '_' + 1)).isEmpty = true ↔ t.idxOf '_' + 1 = t.length := by
    rw [List.isEmpty_iff, List.drop_eq_nil_iff]
    omega
  rw [splitDeclaration, hcut]
  simp only [hproperty, hvalue]

namespace Parser

theorem step_start (m : SchemeMatch) (token : String) :
    (start m token).step =
      { stage := .breakpointChecked
        rest := withoutBreakpoint token.toList
        media := (namedBreakpoint token.toList).map .breakpoint
        selector := ""
        schemeMatch := m } := by
  simp only [step, start, breakpoint?_eq]
  cases h : namedBreakpoint token.toList with
  | none =>
      simp only [Option.map_none, withoutBreakpoint, h, Option.isSome_none, Bool.false_eq_true,
        if_false]
  | some b => simp only [Option.map_some]

theorem step_scheme (m : SchemeMatch) (token : List Char) (selector : String) :
    ({ stage := .breakpointChecked
       rest := withoutBreakpoint token
       media := (namedBreakpoint token).map .breakpoint
       selector
       schemeMatch := m } : Parser).step =
      { stage := .schemeChecked
        rest := withoutScope m token
        media := scope m token
        selector
        schemeMatch := m } := by
  simp only [step, withoutScope, scope]
  cases h : ColorScheme.detect m (withoutBreakpoint token) with
  | none => rfl
  | some found => rfl

theorem step_chain (m : SchemeMatch) (t : List Char) (media : Option Condition) :
    ({ stage := .schemeChecked, rest := t, media, selector := "", schemeMatch := m } : Parser).step =
      { stage := .chainChecked
        rest := (peelChain t).2
        media
        selector := String.ofList (peelChain t).1
        schemeMatch := m } := by
  simp only [step, String.empty_append]

/-- Running to the end begins with one step. A stage that is the end steps to
    itself. -/
theorem finish_step (p : Parser) : p.finish = p.step.finish := by
  cases h : p.stage with
  | done | invalid =>
      have hstay : p.step = p := by
        unfold step
        rw [h]
      rw [hstay]
  | start | breakpointChecked | schemeChecked | chainChecked | split =>
      rw [finish]
      split <;> simp_all only [reduceCtorEq]

theorem finish_chainChecked (m : SchemeMatch) (t : List Char) (media : Option Condition)
    (selector : String) :
    ({ stage := .chainChecked, rest := t, media, selector, schemeMatch := m } : Parser).finish =
      (splitDeclaration t).map fun halves =>
        { property := Escape.decode (String.ofList halves.1)
          value := Escape.decode (String.ofList halves.2)
          media
          selector } := by
  rw [finish_step]
  simp only [step]
  cases h : splitDeclaration t with
  | error reason =>
      rw [finish]
      rfl
  | ok halves =>
      rw [finish_step]
      simp only [step]
      rw [finish]
      rfl

end Parser

/-- The reader as a composition of its parts: the scope off the front, the chain
    off the rest, and the split of what remains. -/
theorem read_eq (m : SchemeMatch) (token : String) :
    read m token =
      (splitDeclaration (peelChain (withoutScope m token.toList)).2).map fun halves =>
        { property := Escape.decode (String.ofList halves.1)
          value := Escape.decode (String.ofList halves.2)
          media := scope m token.toList
          selector := String.ofList (peelChain (withoutScope m token.toList)).1 } := by
  rw [read, Parser.finish_step, Parser.step_start, Parser.finish_step, Parser.step_scheme,
    Parser.finish_step, Parser.step_chain, Parser.finish_chainChecked]

theorem read_of_not_mem (m : SchemeMatch) (token : String)
    (h : '_' ∉ withoutScope m token.toList) : read m token = .error .missingSeparator := by
  rw [read_eq, peelChain_of_not_mem _ h, splitDeclaration_of_not_mem _ h]
  rfl

theorem read_of_mem (m : SchemeMatch) (token : String) (h : '_' ∈ withoutScope m token.toList) :
    read m token =
      if declarationStart (withoutScope m token.toList) = (withoutScope m token.toList).idxOf '_'
      then .error .emptyProperty
      else if (withoutScope m token.toList).idxOf '_' + 1 = (withoutScope m token.toList).length
      then .error .emptyValue
      else .ok (declared m token.toList) := by
  rw [read_eq, peelChain_of_mem _ h, splitDeclaration_drop _ h, declared]
  simp only [apply_ite String.ofList, apply_ite (Except.map _)]
  rfl

/-- A token has a directive exactly if its underscore leaves something on both
    sides, and then it is the directive between the positions. -/
theorem read_eq_ok_iff (m : SchemeMatch) (token : String) (d : Directive) :
    read m token = .ok d ↔
      '_' ∈ withoutScope m token.toList ∧
      declarationStart (withoutScope m token.toList) < (withoutScope m token.toList).idxOf '_' ∧
      (withoutScope m token.toList).idxOf '_' + 1 < (withoutScope m token.toList).length ∧
      d = declared m token.toList := by
  by_cases hsep : '_' ∈ withoutScope m token.toList
  · have hle := declarationStart_le (withoutScope m token.toList)
    have hlt := List.idxOf_lt_length_of_mem hsep
    rw [read_of_mem m token hsep]
    split
    · next hcu => simp only [reduceCtorEq, hcu, Nat.lt_irrefl, false_and, and_false]
    · split
      · next hend => simp only [reduceCtorEq, hend, Nat.lt_irrefl, false_and, and_false]
      · next hcu hend =>
        rw [Except.ok.injEq, eq_comm]
        exact ⟨fun hd => ⟨hsep, by omega, by omega, hd⟩, fun h => h.2.2.2⟩
  · rw [read_of_not_mem m token hsep]
    simp only [reduceCtorEq, hsep, false_and]

/-- Only a token with an underscore has a directive, however its scope is read. -/
theorem underscore_mem_of_read (m : SchemeMatch) (token : String) (d : Directive)
    (h : read m token = .ok d) : '_' ∈ token.toList :=
  (withoutScope_suffix m token.toList).subset ((read_eq_ok_iff m token d).1 h).1

/-- The four answers of the reader and when they are given. With the scope off,
    let `u` be the position of the first underscore and `c` the position behind
    the last colon before it. Without an underscore there is no declaration; with
    nothing between `c` and `u` there is no property; with nothing behind `u`
    there is no value. In every other case there is a directive, and it is the
    one between these positions. -/
theorem read_iff (m : SchemeMatch) (token : String) :
    let t := withoutScope m token.toList
    let u := t.idxOf '_'
    let c := declarationStart t
    (read m token = .error .missingSeparator ↔ '_' ∉ t) ∧
    (read m token = .error .emptyProperty ↔ '_' ∈ t ∧ c = u) ∧
    (read m token = .error .emptyValue ↔ '_' ∈ t ∧ c < u ∧ u + 1 = t.length) ∧
    ∀ d, read m token = .ok d ↔ '_' ∈ t ∧ c < u ∧ u + 1 < t.length ∧
      d = { property := Escape.decode (String.ofList ((t.take u).drop c))
            value := Escape.decode (String.ofList (t.drop (u + 1)))
            media := scope m token.toList
            selector := if c = 0 then "" else String.ofList (':' :: t.take (c - 1)) } := by
  intro t u c
  have hok : ∀ d, read m token = .ok d ↔ _ := read_eq_ok_iff m token
  -- In each case the answer is known, and the three equivalences are read off it.
  by_cases hsep : '_' ∈ t
  · have hread := read_of_mem m token hsep
    have hle : c ≤ u := declarationStart_le t
    by_cases hcu : c = u
    · rw [if_pos hcu] at hread
      refine ⟨?_, ?_, ?_, hok⟩ <;> rw [hread] <;> simp [hsep, hcu]
    · have hclt : c < u := by omega
      rw [if_neg hcu] at hread
      by_cases hend : u + 1 = t.length
      · rw [if_pos hend] at hread
        refine ⟨?_, ?_, ?_, hok⟩ <;> rw [hread] <;> simp [hsep, hcu, hclt, hend]
      · rw [if_neg hend] at hread
        refine ⟨?_, ?_, ?_, hok⟩ <;> rw [hread] <;> simp [hsep, hcu, hend]
  · refine ⟨?_, ?_, ?_, hok⟩ <;> rw [read_of_not_mem m token hsep] <;> simp [hsep]

end Token

end AtomicCss
