import AtomicCss.Proofs.Directive.RuleText
import AtomicCss.Proofs.Token.Registers

/-!
# The Two Halves of a Declaration

What a directive is like that was read from a token.

That none of its halves is empty is checked by the reader before it reads any escapes,
and it has to hold of what they stand for. Reading an escape gives a character and never
none, so it does. Which characters a half can hold depends on where the token was cut.
The property begins behind the last colon and ends at the first underscore. It holds
neither of them, and without an underscore there is no escape to read in it: apart from
its tildes the property is the text as it stands in the token. The chain in front of it
ends before that underscore, too. The value may hold both, as the rest of the text or by
an escape, but no tilde, not even one that an escape names.

The class name is another text that is made of both halves. It encodes them, so nothing
is left in it but letters, digits and underscores, and one of these stands between.

## Theorems

* `colon_not_mem_half`: The property begins behind the last colon.
* `Escape.decode_of_no_underscore`: A text without underscores is read for its tildes only.
* `stage_of_read`: The halves at the end of a reader.
* `property_of_read`: The property is the text of its half.
* `directive_of_read`: What a directive is like.
-/

namespace AtomicCss

namespace Escape

/-- Where there is no underscore, no escape is read, and only the tildes change. -/
theorem decode_of_no_underscore (s : String) (h : '_' ∉ s.toList) :
    decode s = tildesToSpaces s := by
  refine String.toList_injective ?_
  rw [toList_decode, decodeChars, unescape_of_not_mem _ h, tildesToSpaces, String.toList_map]
  rfl

/-- A character of the changed text stood there before, if it is no space. -/
theorem mem_of_mem_tildesToSpaces (s : String) (c : Char) (hc : c ≠ ' ')
    (h : c ∈ (tildesToSpaces s).toList) : c ∈ s.toList := by
  rw [tildesToSpaces, String.toList_map, List.mem_map] at h
  rcases h with ⟨before, hmem, hbefore⟩
  by_cases htilde : before = '~'
  · rw [if_pos htilde] at hbefore
    exact absurd hbefore.symm hc
  · rw [if_neg htilde] at hbefore
    rw [← hbefore]
    exact hmem

end Escape

namespace Token

/-- The half of the property, before its tildes are read. -/
def propertyHalf (t : List Char) : List Char :=
  (t.take (t.idxOf '_')).drop (declarationStart t)

theorem underscore_not_mem_half (t : List Char) : '_' ∉ propertyHalf t :=
  fun hmem => Text.not_mem_take_idxOf '_' t (List.mem_of_mem_drop hmem)

/-- The property begins behind the last colon. Backwards, that is the first one. -/
theorem colon_not_mem_half (t : List Char) : ':' ∉ propertyHalf t := by
  intro hmem
  have hle : (t.take (t.idxOf '_')).reverse.idxOf ':' ≤ t.idxOf '_' := by
    have hlength := List.idxOf_le_length (l := (t.take (t.idxOf '_')).reverse) (a := ':')
    rwa [List.length_reverse, length_take_idxOf] at hlength
  have hback : (t.take (t.idxOf '_')).length - declarationStart t
      = (t.take (t.idxOf '_')).reverse.idxOf ':' := by
    rw [length_take_idxOf, declarationStart]
    omega
  rw [propertyHalf, ← List.mem_reverse, List.reverse_drop, hback] at hmem
  exact Text.not_mem_take_idxOf ':' _ hmem

/-- The reader of a token with a directive ends with its two halves. -/
theorem stage_of_read (m : SchemeMatch) (token : String) (d : Directive)
    (h : read m token = .ok d) :
    let t := withoutScope m token.toList
    (Parser.step^[5] (Parser.start m token)).stage
      = .done (propertyHalf t) (t.drop (t.idxOf '_' + 1)) := by
  intro t
  rcases (read_eq_ok_iff m token d).1 h with ⟨hsep, hstart, hend, _⟩
  have hsplit := splitDeclaration_drop t hsep
  rw [if_neg (Nat.ne_of_lt hstart), if_neg (Nat.ne_of_lt hend)] at hsplit
  have hthree : Parser.step^[3] (Parser.start m token) =
      { stage := .chainChecked
        rest := (peelChain t).2
        media := scope m token.toList
        selector := String.ofList (peelChain t).1
        schemeMatch := m } := by
    simp only [Function.iterate_succ_apply, Function.iterate_zero_apply, Parser.step_start,
      Parser.step_scheme, Parser.step_chain, t]
  rw [Function.iterate_add_apply Parser.step 2 3, hthree, peelChain_of_mem t hsep]
  simp only [Function.iterate_succ_apply, Function.iterate_zero_apply, Parser.step, hsplit]
  rfl

/-- The property is the text of its half, with spaces for its tildes. -/
theorem property_of_read (m : SchemeMatch) (token : String) (d : Directive)
    (h : read m token = .ok d) :
    d.property = Escape.tildesToSpaces
      (String.ofList (propertyHalf (withoutScope m token.toList))) := by
  rcases (read_eq_ok_iff m token d).1 h with ⟨_, _, _, rfl⟩
  refine Escape.decode_of_no_underscore _ ?_
  rw [String.toList_ofList]
  exact underscore_not_mem_half _

/-- No character of the property is an underscore, a colon or a tilde. -/
theorem not_mem_property_of_read (m : SchemeMatch) (token : String) (d : Directive)
    (h : read m token = .ok d) : '_' ∉ d.property.toList ∧ ':' ∉ d.property.toList ∧
      '~' ∉ d.property.toList := by
  have hhalf : ∀ c ∈ d.property.toList, c ≠ ' ' →
      c ∈ propertyHalf (withoutScope m token.toList) := by
    intro c hmem hc
    rw [property_of_read m token d h] at hmem
    have hbefore := Escape.mem_of_mem_tildesToSpaces _ c hc hmem
    rwa [String.toList_ofList] at hbefore
  refine ⟨fun hmem => ?_, fun hmem => ?_, ?_⟩
  · exact underscore_not_mem_half _ (hhalf '_' hmem (by decide))
  · exact colon_not_mem_half _ (hhalf ':' hmem (by decide))
  · rcases (read_eq_ok_iff m token d).1 h with ⟨_, _, _, rfl⟩
    rw [declared, Escape.toList_decode]
    exact Escape.tilde_not_mem_decodeChars _

/-- The chain ends before the first underscore. -/
theorem underscore_not_mem_selector_of_read (m : SchemeMatch) (token : String) (d : Directive)
    (h : read m token = .ok d) : '_' ∉ d.selector.toList := by
  rcases (read_eq_ok_iff m token d).1 h with ⟨_, hstart, _, rfl⟩
  intro hmem
  simp only [declared] at hmem
  split at hmem
  · exact absurd hmem (by decide)
  · rw [String.toList_ofList, List.mem_cons] at hmem
    rcases hmem with hcolon | hname
    · exact absurd hcolon (by decide)
    · -- A part of what stands in front of the underscore.
      have hshort := List.take_prefix_take_left (l := withoutScope m token.toList)
        (show declarationStart (withoutScope m token.toList) - 1
          ≤ (withoutScope m token.toList).idxOf '_' by omega)
      exact Text.not_mem_take_idxOf '_' _ (hshort.subset hname)

/-- What a directive is like that was read from a token. Its property is not empty and
    holds no underscore, no colon and no tilde; its value is not empty and holds no tilde;
    its chain is empty or begins with a colon, and holds no underscore. Its class name is
    made of letters, digits and underscores, with one underscore at least. The reader ends
    with two halves that stand in the token on either side of an underscore, and while the
    value is what the second half is read as, no escape is read in the first one: the
    property is its text, with spaces for tildes. -/
theorem directive_of_read (m : SchemeMatch) (token : String) (d : Directive)
    (h : read m token = .ok d) :
    (d.property ≠ "" ∧
      '_' ∉ d.property.toList ∧ ':' ∉ d.property.toList ∧ '~' ∉ d.property.toList) ∧
    (d.value ≠ "" ∧ '~' ∉ d.value.toList) ∧
    ((d.selector = "" ∨ ∃ names : List Char, d.selector.toList = ':' :: names) ∧
      '_' ∉ d.selector.toList) ∧
    ((∀ c ∈ d.className.toList, c.isAlphanum = true ∨ c = '_') ∧ '_' ∈ d.className.toList) ∧
    ∃ first second,
      (Parser.step^[5] (Parser.start m token)).stage = .done first second ∧
      first ++ '_' :: second <:+ token.toList ∧
      d.property = Escape.tildesToSpaces (String.ofList first) ∧
      d.value = Escape.decode (String.ofList second) := by
  refine ⟨⟨?_, not_mem_property_of_read m token d h⟩, ⟨?_, tilde_not_mem_of_read m token d h⟩,
    ⟨?_, underscore_not_mem_selector_of_read m token d h⟩,
    ⟨d.safe_or_underscore_of_mem_className, ?_⟩, ?_⟩
  · rw [ne_eq, ← String.toList_eq_nil_iff]
    exact property_ne_nil_of_read m token d h
  · rw [ne_eq, ← String.toList_eq_nil_iff]
    exact value_ne_nil_of_read m token d h
  · rcases Directive.isChain_of_read m token d h with hempty | ⟨names, hnames⟩
    · exact .inl hempty
    · refine .inr ⟨names.toList, ?_⟩
      rw [hnames, String.toList_append]
      rfl
  · rw [d.toList_className]
    exact List.mem_append_right _ List.mem_cons_self
  · have hstage := stage_of_read m token d h
    -- The halves are what the registers hold at the end, and those hang together.
    have hsound : Registers.Sound token.toList
        (Parser.step^[5] (Parser.start m token)).registers := by
      rw [Parser.registers_iterate]
      exact Registers.sound_iterate (Registers.sound_start m token) 5
    refine ⟨_, _, hstage, ?_, property_of_read m token d h, ?_⟩
    · rw [(hsound.halves_eq _ _ (congrArg Stage.halves? hstage)).2.2]
      exact hsound.rest_suffix
    · rcases (read_eq_ok_iff m token d).1 h with ⟨_, _, _, rfl⟩
      rfl

/-- A token with a breakpoint, a chain, a tilde in its property, and in its value a tilde
    and an escape that names one. -/
theorem directive_of_read_tildes :
    let token := "pc@hover:--a~b_c~d__126__"
    let d : Directive := ⟨"--a b", "c d ", some (.breakpoint .pc), ":hover"⟩
    read .anywhere token = .ok d ∧ d.property ≠ "" ∧ '_' ∉ d.property.toList ∧
      d.property = Escape.tildesToSpaces "--a~b" ∧ '~' ∉ d.value.toList ∧
      '_' ∈ d.className.toList := by
  intro token d
  have hread : read .anywhere token = .ok d := by decide +kernel
  rcases directive_of_read .anywhere token d hread with
    ⟨⟨hproperty, hfree, _⟩, ⟨_, htilde⟩, _, ⟨_, hname⟩, _⟩
  exact ⟨hread, hproperty, hfree, by decide +kernel, htilde, hname⟩

end Token

end AtomicCss
