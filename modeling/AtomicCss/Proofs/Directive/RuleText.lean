import AtomicCss.Proofs.Directive.Unique
import AtomicCss.Proofs.Text.Cut
import AtomicCss.Proofs.Token.Grammar

/-!
# Unique Rules

No two directives share a rule.

A rule is written for a browser and not to be read back here, and its declaration
is not escaped. A value may hold braces and colons, or the text of a whole media
block, and so may a chain of pseudo-classes, so the last brace of a rule need not
be the one that closes it, and the first colon need not be the one behind the
property. What can be relied on stands in front. A rule opens with a dot or with
the text of a media block, and the feature of a block holds no brace, so the first
brace ends it. Behind the dot stands the class name. It is made of letters, digits
and underscores, and what follows it, the colon of a pseudo-class or the brace of
the block, is none of these. So the class name is the longest such run behind the
dot (`takeWhile_styleRule`).

The class name gives the property and the value, and with them the whole
declaration, which is cut off from the end. Between the two stands the chain, and
whatever it holds does not matter any more.

The chain has to be empty or open with its colon, since `red` behind the name of
`color_dark` would make it the name of another declaration. Reading a token gives
no other chain (`isChain_of_read`).

## Main definitions

* `Directive.IsChain`: The chain is empty or opens with a colon.

## Theorems

* `Condition.wrap_inj`: A media block is told from its text.
* `takeWhile_styleRule`: The class name is the first run in a rule.
* `styleRule_inj`: Declaration and chain are told from the rule.
* `ruleText_inj`: The whole directive is told from the rule with its condition.
* `isChain_of_read`: The chain of a directive that was read.
* `ruleText_eq_iff`: Rules are equal only if the directives are.
-/

namespace AtomicCss

theorem Breakpoint.expression_inj (b b' : Breakpoint) (h : b.expression = b'.expression) :
    b = b' := by
  cases b <;> cases b' <;>
    first
    | rfl
    | exact absurd h (by simp only [Breakpoint.expression, String.reduceEq, not_false_eq_true])

theorem ColorScheme.expression_inj (s s' : ColorScheme) (h : s.expression = s'.expression) :
    s = s' := by
  cases s <;> cases s' <;>
    first
    | rfl
    | exact absurd h (by simp only [ColorScheme.expression, String.reduceEq, not_false_eq_true])

theorem Breakpoint.expression_ne (b : Breakpoint) (s : ColorScheme) :
    b.expression ≠ s.expression := by
  cases b <;> cases s <;>
    simp only [Breakpoint.expression, ColorScheme.expression, ne_eq, String.reduceEq,
      not_false_eq_true]

namespace Condition

/-- No two conditions share a media feature. -/
theorem expression_inj (c c' : Condition) (h : c.expression = c'.expression) : c = c' := by
  cases c with
  | breakpoint b =>
      cases c' with
      | breakpoint b' => rw [b.expression_inj b' h]
      | colorScheme s' => exact absurd h (b.expression_ne s')
  | colorScheme s =>
      cases c' with
      | breakpoint b' => exact absurd h.symm (b'.expression_ne s)
      | colorScheme s' => rw [s.expression_inj s' h]

/-- A media feature holds no brace. -/
theorem brace_not_mem_expression (c : Condition) : '\x7b' ∉ c.expression.toList := by
  cases c with
  | breakpoint b => cases b <;> decide
  | colorScheme s => cases s <;> decide

theorem toList_wrap (c : Condition) (rule : String) :
    (c.wrap rule).toList = "@media only screen and ".toList ++
      (c.expression.toList ++ '\x7b' :: (rule.toList ++ ['\x7d'])) := by
  unfold wrap
  -- Taken as a variable, the opening text is not spelled out.
  generalize "@media only screen and " = opening
  simp only [String.toList_append, List.append_assoc]
  rfl

/-- A media block is told from its text. -/
theorem wrap_inj (c c' : Condition) (rule rule' : String) (h : c.wrap rule = c'.wrap rule') :
    c = c' ∧ rule = rule' := by
  have hchars := congrArg String.toList h
  rw [toList_wrap, toList_wrap] at hchars
  -- The text in front is the same, and the first brace behind it ends the feature.
  rcases Text.append_cons_inj _ _ _ _ _ c.brace_not_mem_expression c'.brace_not_mem_expression
    (List.append_cancel_left hchars) with ⟨hexpression, hrest⟩
  exact ⟨expression_inj c c' (String.toList_injective hexpression),
    String.toList_injective (List.append_cancel_right hrest)⟩

end Condition

namespace Directive

open CustomProperty (isWordChar)

/-- The chain of pseudo-classes is empty or opens with a colon. -/
def IsChain (d : Directive) : Prop :=
  d.selector = "" ∨ ∃ names, d.selector = ":" ++ names

theorem toList_styleRule (d : Directive) :
    d.styleRule.toList = '.' :: (d.className.toList ++
      (d.selector.toList ++ '\x7b' :: (d.declaration.toList ++ ['\x7d']))) := by
  have hdot : ".".toList = ['.'] := rfl
  have hopen : "\x7b".toList = ['\x7b'] := rfl
  have hclose : "\x7d".toList = ['\x7d'] := rfl
  simp only [styleRule, String.toList_append, List.append_assoc, hdot, hopen, hclose,
    List.cons_append, List.nil_append]

theorem isWordChar_of_mem_className (d : Directive) (c : Char) (h : c ∈ d.className.toList) :
    isWordChar c = true := by
  rw [isWordChar, Bool.or_eq_true, beq_iff_eq]
  exact d.safe_or_underscore_of_mem_className c h

/-- Behind the class name stands a colon or a brace, and no word goes on there. -/
theorem takeWhile_behind_className (d : Directive) (h : d.IsChain) (rest : List Char) :
    (d.selector.toList ++ '\x7b' :: rest).takeWhile isWordChar = [] := by
  rcases h with hnone | ⟨names, hnames⟩
  · rw [hnone]
    exact List.takeWhile_cons_of_neg (by decide)
  · rw [hnames, String.toList_append]
    exact List.takeWhile_cons_of_neg (by decide)

/-- The class name is the first run of word characters in a rule. -/
theorem takeWhile_styleRule (d : Directive) (h : d.IsChain) :
    d.styleRule.toList.tail.takeWhile isWordChar = d.className.toList := by
  rw [toList_styleRule, List.tail_cons,
    List.takeWhile_append_of_pos d.isWordChar_of_mem_className,
    d.takeWhile_behind_className h, List.append_nil]

/-- All but the condition is told from a rule without it. -/
theorem styleRule_inj (d d' : Directive) (hd : d.IsChain) (hd' : d'.IsChain)
    (h : d.styleRule = d'.styleRule) :
    d.property = d'.property ∧ d.value = d'.value ∧ d.selector = d'.selector := by
  have hname : d.className.toList = d'.className.toList := by
    rw [← d.takeWhile_styleRule hd, h, d'.takeWhile_styleRule hd']
  rcases (d.className_eq_iff d').1 (String.toList_injective hname) with ⟨hproperty, hvalue⟩
  -- The declarations are equal, and so is all that stands behind the chains.
  have hdeclaration : d.declaration = d'.declaration := by
    rw [declaration, declaration, hproperty, hvalue]
  have hchars := congrArg String.toList h
  rw [toList_styleRule, toList_styleRule, hname, hdeclaration, List.cons.injEq] at hchars
  have hselector := List.append_cancel_right (List.append_cancel_left hchars.2)
  exact ⟨hproperty, hvalue, String.toList_injective hselector⟩

/-- A rule inside a media block is no rule without one. -/
theorem wrap_ne_styleRule (c : Condition) (rule : String) (d : Directive) :
    c.wrap rule ≠ d.styleRule := by
  intro h
  have hchars := congrArg String.toList h
  rw [Condition.toList_wrap, toList_styleRule] at hchars
  -- The one opens with an at sign, the other with a dot.
  exact absurd (List.cons.inj hchars).1 (by decide)

/-- The whole directive is told from its rule. -/
theorem ruleText_inj (d d' : Directive) (hd : d.IsChain) (hd' : d'.IsChain)
    (h : d.ruleText = d'.ruleText) : d = d' := by
  -- Two rules are in a block both or neither, and what is inside is equal too.
  have hparts : d.media = d'.media ∧ d.styleRule = d'.styleRule := by
    unfold ruleText at h
    cases hmedia : d.media with
    | none =>
        cases hmedia' : d'.media with
        | none =>
            rw [hmedia, hmedia'] at h
            exact ⟨rfl, h⟩
        | some c' =>
            rw [hmedia, hmedia'] at h
            exact absurd h.symm (wrap_ne_styleRule c' _ d)
    | some c =>
        cases hmedia' : d'.media with
        | none =>
            rw [hmedia, hmedia'] at h
            exact absurd h (wrap_ne_styleRule c _ d')
        | some c' =>
            rw [hmedia, hmedia'] at h
            rcases Condition.wrap_inj c c' _ _ h with ⟨hc, hrule⟩
            exact ⟨by rw [hc], hrule⟩
  rcases styleRule_inj d d' hd hd' hparts.2 with ⟨hproperty, hvalue, hselector⟩
  cases d
  cases d'
  simp only [Directive.mk.injEq]
  exact ⟨hproperty, hvalue, hparts.1, hselector⟩

/-- A chain that was read is one: it is put together behind a colon. -/
theorem isChain_of_read (m : SchemeMatch) (token : String) (d : Directive)
    (h : Token.read m token = .ok d) : d.IsChain := by
  rcases (Token.read_eq_ok_iff m token d).1 h with ⟨_, _, _, hd⟩
  by_cases hstart : Token.declarationStart (Token.withoutScope m token.toList) = 0
  · refine Or.inl ?_
    rw [hd, Token.declared]
    exact if_pos hstart
  · let names := (Token.withoutScope m token.toList).take
      (Token.declarationStart (Token.withoutScope m token.toList) - 1)
    have hselector : d.selector = String.ofList (':' :: names) := by
      rw [hd, Token.declared]
      exact if_neg hstart
    refine Or.inr ⟨String.ofList names, String.toList_injective ?_⟩
    rw [hselector, String.toList_append, String.toList_ofList, String.toList_ofList,
      String.toList_ofList]
    rfl

/-- Two directives with chains have one rule only if they are one directive, whatever
    their properties, values and chains hold. So two tokens that are read in any
    two ways lead to one rule only if they say the same. -/
theorem ruleText_eq_iff :
    (∀ d d' : Directive, d.IsChain → d'.IsChain → (d.ruleText = d'.ruleText ↔ d = d')) ∧
    ∀ (m m' : SchemeMatch) (token token' : String) (d d' : Directive),
      Token.read m token = .ok d → Token.read m' token' = .ok d' →
      (d.ruleText = d'.ruleText ↔ d = d') := by
  refine ⟨fun d d' hd hd' => ⟨ruleText_inj d d' hd hd', fun heq => by rw [heq]⟩, ?_⟩
  intro m m' token token' d d' hread hread'
  exact ⟨ruleText_inj d d' (isChain_of_read m token d hread) (isChain_of_read m' token' d' hread'),
    fun heq => by rw [heq]⟩

/-- A chain that holds a whole block, as a token may have one, is told from the chain
    in front of that block. -/
theorem ruleText_eq_iff_block_in_chain :
    let d : Directive := ⟨"color", "red", none, ":hover\x7bcolor:red\x7d.a"⟩
    let d' : Directive := ⟨"color", "red", none, ":hover"⟩
    d.IsChain ∧ d'.IsChain ∧ (d.ruleText = d'.ruleText ↔ d = d') ∧
    Token.read .leading "hover\x7bcolor:red\x7d.a:color_red" = .ok d ∧
    Token.read .anywhere "hover:color_red" = .ok d' ∧ d.ruleText ≠ d'.ruleText := by
  intro d d'
  have hd : d.IsChain := Or.inr ⟨"hover\x7bcolor:red\x7d.a", by decide +kernel⟩
  have hd' : d'.IsChain := Or.inr ⟨"hover", by decide +kernel⟩
  have hread : Token.read .leading "hover\x7bcolor:red\x7d.a:color_red" = .ok d := by
    decide +kernel
  have hread' : Token.read .anywhere "hover:color_red" = .ok d' := by decide +kernel
  refine ⟨hd, hd', ruleText_eq_iff.1 d d' hd hd', hread, hread', fun h => ?_⟩
  exact absurd ((ruleText_eq_iff.2 _ _ _ _ d d' hread hread').1 h) (by decide +kernel)

end Directive

end AtomicCss
