import AtomicCss.Proofs.Token.ClassName

/-!
# Writing Tokens

Every declaration and every scope can be written as a token.

The grammar says how a token is read, and an author wants to know what to write.
The parts go one behind the other, each with its separator: the breakpoint and an
`@`, the marker of the scheme, each pseudo-class and a colon, the property and an
underscore, and the value, which is the only part that is escaped. A reader that
searches for separators could be misled by one that belongs to a part, so no part
in front of the value may hold any. The value may hold anything, since its
encoding has neither an `@` nor a dot nor a colon in it, and its underscores come
too late to be the first.

`read_token` says that the reader takes such a token apart into the very parts
that it was put together from, in both ways to recognise a scheme. The two ways
agree here because a plain part has no dot: the only dot is that of the marker.

Each part is taken off by a lemma of its own, which leaves the text behind it
free. The chain of pseudo-classes is the part of unbounded length, and the
induction is on it.

## Main definitions

* `Plain`: A text that holds no separator.
* `Spelling`: The parts of a token.
* `Spelling.token`: The token that is put together from the parts.
* `Spelling.directive`: The directive that the parts ask for.
* `Spelling.WellFormed`: What the parts have to be like.

## Theorems

* `breakpoint_lead`: The breakpoint is taken off.
* `detect_marker`: The marker is taken off, in both ways to recognise it.
* `peelChain_names`: The chain is taken off, however long it is.
* `Spelling.read_token`: A token is read as the parts that it was put together from.
-/

namespace AtomicCss

namespace Token

open Text

/-- The characters at which a token is cut. -/
def separators : List Char := ['@', '.', ':', '_']

/-- A text that holds no separator. -/
def Plain (s : String) : Prop :=
  ∀ c ∈ separators, c ∉ s.toList

instance (s : String) : Decidable (Plain s) :=
  -- Over the list of separators, not over all characters.
  List.decidableBAll (fun c => c ∉ s.toList) separators

/-- The parts of a token: the scope, which may be empty, and the declaration. -/
structure Spelling where
  breakpoint : Option Breakpoint
  scheme : Option ColorScheme
  chain : List String
  property : String
  value : String
  deriving DecidableEq, Repr

namespace Spelling

/-- The token that is put together from the parts. -/
def token (s : Spelling) : String :=
  s.breakpoint.elim "" (fun b => b.name ++ "@") ++ s.scheme.elim "" ColorScheme.marker
    ++ String.join (s.chain.map fun name => name ++ ":")
    ++ s.property ++ "_" ++ Escape.encode s.value

/-- The directive that the parts ask for. A scheme counts more than a breakpoint. -/
def directive (s : Spelling) : Directive where
  property := s.property
  value := Escape.tildesToSpaces s.value
  media := (s.scheme.map .colorScheme).or (s.breakpoint.map .breakpoint)
  selector := String.join (s.chain.map fun name => ":" ++ name)

/-- What the parts have to be like: both halves of the declaration are there, and
    nothing in front of the value can be mistaken for a separator. -/
structure WellFormed (s : Spelling) : Prop where
  chain_plain : ∀ name ∈ s.chain, Plain name
  property_plain : Plain s.property
  property_ne : s.property ≠ ""
  property_no_tilde : '~' ∉ s.property.toList
  value_ne : s.value ≠ ""

end Spelling

/-- The breakpoint in front of an `@` is known, and what is behind is left. -/
theorem breakpoint_lead (b : Breakpoint) (rest : List Char) :
    namedBreakpoint (b.name.toList ++ '@' :: rest) = some b ∧
      withoutBreakpoint (b.name.toList ++ '@' :: rest) = rest := by
  have hname : '@' ∉ b.name.toList := by cases b <;> decide
  have hfound : breakpoint? (b.name.toList ++ '@' :: rest) = some (b, rest) := by
    rw [breakpoint?, cutAt_eq_some_iff.2 ⟨rfl, hname⟩]
    simp only [String.ofList_toList, Breakpoint.ofName?_eq_some_iff.2 rfl, Option.map_some]
  rw [breakpoint?_eq] at hfound
  rcases Option.map_eq_some_iff.1 hfound with ⟨named, hnamed, hpair⟩
  rw [hnamed, (Prod.mk.inj hpair).1]
  exact ⟨rfl, (Prod.mk.inj hpair).2⟩

/-- The dark marker does not occur in a text that opens with the light one and has
    no other dot. It ends in a dot, so it would end where the light one ends. -/
theorem not_infix_dark (rest : List Char) (h : '.' ∉ rest) :
    ¬ ColorScheme.dark.marker.toList <:+: ColorScheme.light.marker.toList ++ rest := by
  rintro ⟨a, b, heq⟩
  have hcount := congrArg (List.count '.') heq
  have hdark : ColorScheme.dark.marker.toList = "dark".toList ++ ['.'] := rfl
  have hlight : ColorScheme.light.marker.toList = "light".toList ++ ['.'] := rfl
  rw [hdark, hlight] at heq hcount
  -- There is one dot, so none is in front of the marker.
  have ha : '.' ∉ a := by
    rw [← List.count_pos_iff]
    simp only [List.count_append, List.count_eq_zero_of_not_mem h] at hcount
    have hone : List.count '.' "light".toList = 0 ∧ List.count '.' ['.'] = 1 := by decide
    omega
  have hleft : cutAt '.' ("light".toList ++ '.' :: rest) = some (a ++ "dark".toList, b) := by
    refine cutAt_eq_some_iff.2 ⟨?_, ?_⟩
    · simp only [List.append_assoc, List.singleton_append] at heq ⊢
      exact heq.symm
    · rw [List.mem_append, not_or]
      exact ⟨ha, by decide⟩
  rw [cutAt_eq_some_iff.2 ⟨rfl, by decide⟩, Option.some.injEq, Prod.mk.injEq] at hleft
  have hk : 'k' ∈ a ++ "dark".toList := List.mem_append_right a (by decide)
  rw [← hleft.1] at hk
  exact absurd hk (by decide)

/-- A marker in front of a text without dots is recognised in both ways. -/
theorem detect_marker (m : SchemeMatch) (scheme : ColorScheme) (rest : List Char) (h : '.' ∉ rest) :
    ColorScheme.detect m (scheme.marker.toList ++ rest) = some (scheme, rest) := by
  have hleading := (ColorScheme.detect_leading_eq_some_iff _ rest scheme).2 rfl
  cases m with
  | leading => exact hleading
  | anywhere =>
      rw [ColorScheme.detect_anywhere_of_leading _ rest scheme hleading, if_neg]
      rintro ⟨rfl, hdark⟩
      exact not_infix_dark rest h hdark

/-- Nothing is taken off a declaration: no colon stands before its underscore. -/
theorem peelChain_declaration (property value : List Char) (hcolon : ':' ∉ property)
    (hunderscore : '_' ∉ property) :
    peelChain (property ++ '_' :: value) = ([], property ++ '_' :: value) := by
  have hidx : (property ++ '_' :: value).idxOf '_' = property.length := by
    rw [List.idxOf_append_of_notMem hunderscore, List.idxOf_cons_self, Nat.add_zero]
  have hstart : declarationStart (property ++ '_' :: value) = 0 := by
    refine declarationStart_of_no_colon _ ?_
    rw [hidx, List.take_left]
    exact hcolon
  rw [peelChain_of_mem _ (List.mem_append_right _ List.mem_cons_self), hstart]
  rfl

/-- The whole chain is taken off in front of a declaration, one name a step. -/
theorem peelChain_names (names : List String) (rest : List Char) (h : ∀ name ∈ names, Plain name)
    (hrest : '_' ∈ rest) (hstop : peelChain rest = ([], rest)) :
    peelChain (names.flatMap (fun name => name.toList ++ [':']) ++ rest)
      = (names.flatMap fun name => ':' :: name.toList, rest) := by
  induction names with
  | nil => exact hstop
  | cons name more ih =>
      have hname := h name List.mem_cons_self
      have hmore := ih (fun other hmem => h other (List.mem_cons_of_mem name hmem))
      have hmem : '_' ∈ more.flatMap (fun name => name.toList ++ [':']) ++ rest :=
        List.mem_append_right _ hrest
      rw [List.flatMap_cons, List.append_assoc, List.append_assoc, List.singleton_append,
        peelChain_cons _ _ (hname ':' (by decide)) (hname '_' (by decide)) hmem, hmore,
        List.flatMap_cons]

namespace Spelling

/-- The chain and the declaration, which is what stands behind the marker. -/
def tail (s : Spelling) : List Char :=
  s.chain.flatMap (fun name => name.toList ++ [':'])
    ++ (s.property.toList ++ '_' :: Escape.encodeChars s.value.toList)

theorem toList_token (s : Spelling) :
    s.token.toList = s.breakpoint.elim [] (fun b => b.name.toList ++ ['@'])
      ++ (s.scheme.elim [] (fun scheme => scheme.marker.toList) ++ s.tail) := by
  have hlead : (s.breakpoint.elim "" fun b => b.name ++ "@").toList
      = s.breakpoint.elim [] fun b => b.name.toList ++ ['@'] := by
    cases s.breakpoint with
    | none => rfl
    | some b => exact String.toList_append
  have hmarker : (s.scheme.elim "" ColorScheme.marker).toList
      = s.scheme.elim [] fun scheme => scheme.marker.toList := by
    cases s.scheme <;> rfl
  have hchain : (String.join (s.chain.map fun name => name ++ ":")).toList
      = s.chain.flatMap fun name => name.toList ++ [':'] := by
    rw [String.toList_join, List.flatMap_map]
    exact List.flatMap_congr (fun name _ => String.toList_append)
  simp only [token, tail, String.toList_append, hlead, hmarker, hchain, Escape.toList_encode,
    List.append_assoc]
  rfl

/-- Behind the marker no prefix can be found any more. -/
theorem not_mem_tail (s : Spelling) (h : s.WellFormed) (c : Char) (hc : c = '@' ∨ c = '.') :
    c ∉ s.tail := by
  have hsep : c ∈ separators := by rcases hc with rfl | rfl <;> decide
  have hcolon : c ≠ ':' ∧ c ≠ '_' := by rcases hc with rfl | rfl <;> decide
  intro hmem
  simp only [tail, List.mem_append, List.mem_flatMap, List.mem_cons, List.not_mem_nil, or_false]
    at hmem
  rcases hmem with ⟨name, hname, hin | hin⟩ | hin | hin | hin
  · exact h.chain_plain name hname c hsep hin
  · exact hcolon.1 hin
  · exact h.property_plain c hsep hin
  · exact hcolon.2 hin
  · rcases Escape.safe_or_underscore_of_mem_encodeChars _ c hin with hsafe | hunderscore
    · rcases hc with rfl | rfl <;> exact absurd hsafe (by decide)
    · exact hcolon.2 hunderscore

/-- The breakpoint is known, and the marker stands in front of what is left. -/
theorem withoutBreakpoint_token (s : Spelling) (h : s.WellFormed) :
    namedBreakpoint s.token.toList = s.breakpoint ∧
      withoutBreakpoint s.token.toList
        = s.scheme.elim [] (fun scheme => scheme.marker.toList) ++ s.tail := by
  rw [toList_token]
  cases s.breakpoint with
  | some b =>
      simp only [Option.elim_some, List.append_assoc, List.singleton_append]
      exact breakpoint_lead b _
  | none =>
      have hat : '@' ∉ s.scheme.elim [] (fun scheme => scheme.marker.toList) ++ s.tail := by
        rw [List.mem_append, not_or]
        refine ⟨?_, s.not_mem_tail h '@' (Or.inl rfl)⟩
        rcases s.scheme with _ | scheme
        · exact List.not_mem_nil
        · cases scheme <;> decide
      have hnone : namedBreakpoint (s.scheme.elim [] (fun scheme => scheme.marker.toList) ++ s.tail)
          = none := if_neg hat
      simp only [Option.elim_none, List.nil_append]
      refine ⟨hnone, ?_⟩
      rw [withoutBreakpoint, hnone]
      rfl

/-- The scope is known, and the chain stands in front of what is left. -/
theorem withoutScope_token (m : SchemeMatch) (s : Spelling) (h : s.WellFormed) :
    scope m s.token.toList = s.directive.media ∧ withoutScope m s.token.toList = s.tail := by
  rcases s.withoutBreakpoint_token h with ⟨hnamed, hwithout⟩
  have hdot := s.not_mem_tail h '.' (Or.inr rfl)
  rw [scope, withoutScope, hnamed, hwithout, directive]
  cases s.scheme with
  | some scheme =>
      rw [Option.elim_some, detect_marker m scheme s.tail hdot]
      exact ⟨rfl, rfl⟩
  | none =>
      rw [Option.elim_none, List.nil_append, detect_of_no_dot m s.tail hdot]
      exact ⟨rfl, rfl⟩

theorem ofList_chain (names : List String) :
    String.ofList (names.flatMap fun name => ':' :: name.toList)
      = String.join (names.map fun name => ":" ++ name) := by
  refine String.toList_injective ?_
  rw [String.toList_ofList, String.toList_join, List.flatMap_map]
  refine List.flatMap_congr (fun name _ => ?_)
  rw [String.toList_append]
  rfl

/-- A token is read as the directive that its parts ask for, in both ways to
    recognise a scheme. -/
theorem read_token (m : SchemeMatch) (s : Spelling) (h : s.WellFormed) :
    read m s.token = .ok s.directive := by
  rcases s.withoutScope_token m h with ⟨hscope, hrest⟩
  have hcolon : ':' ∉ s.property.toList := h.property_plain ':' (by decide)
  have hunderscore : '_' ∉ s.property.toList := h.property_plain '_' (by decide)
  have hproperty : s.property.toList ≠ [] := fun hnil =>
    h.property_ne (String.toList_eq_nil_iff.1 hnil)
  have hvalue : Escape.encodeChars s.value.toList ≠ [] :=
    Escape.encodeChars_ne_nil _ (fun hnil => h.value_ne (String.toList_eq_nil_iff.1 hnil))
  have hpeel : peelChain s.tail = (s.chain.flatMap fun name => ':' :: name.toList,
      s.property.toList ++ '_' :: Escape.encodeChars s.value.toList) :=
    peelChain_names s.chain _ h.chain_plain (List.mem_append_right _ List.mem_cons_self)
      (peelChain_declaration _ _ hcolon hunderscore)
  rw [read_eq, hscope, hrest, hpeel, splitDeclaration_append _ _ hunderscore hproperty hvalue,
    Except.map]
  -- What is left is to read the two halves and to write the chain as a selector.
  rw [String.ofList_toList, Escape.decode_of_not_mem _ hunderscore h.property_no_tilde,
    Escape.decode_ofList_encodeChars, ofList_chain]
  rfl

/-- All prefixes at once, with an empty name in the chain and a value in which
    every separator occurs. -/
theorem read_token_all_parts :
    let s : Spelling :=
      { breakpoint := some .tablet, scheme := some .light, chain := ["", "before", "hover"]
        property := "--bg", value := "a_b:c@dark.~" }
    s.WellFormed ∧
      s.token = "tablet@light.:before:hover:--bg_a__95__b__58__c__64__dark__46____126__" ∧
      read .anywhere s.token = .ok
        { property := "--bg", value := "a_b:c@dark. ", media := some (.colorScheme .light)
          selector := "::before:hover" } := by
  intro s
  have hs : s.WellFormed := ⟨by decide, by decide, by decide, by decide, by decide⟩
  exact ⟨hs, by decide +kernel, (read_token .anywhere s hs).trans (by decide +kernel)⟩

end Spelling

end Token

end AtomicCss
