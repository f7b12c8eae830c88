import AtomicCss.Proofs.Directive.ClassName
import AtomicCss.Proofs.Token.Grammar

/-!
# Class Names Read as Tokens

What becomes of a class name that is read as if it were a token.

Class names and tokens share one attribute, so a name that was put there is met
again as a token. It has no prefixes, because their separators do not occur in
it, and the reader goes straight to the first underscore. Everything depends on
which underscore that is.

If the property is safe, its encoding is the property itself, and the first
underscore is the one between the halves. The value then decodes to what was
encoded, and the directive that is read has the same declaration and the same
name. If the property holds any other character, a hyphen say, that character was
written as an escape, and the first underscore is the one that opens the escape.
What stands before it is taken for the property and the rest of the escape for
the beginning of the value. The name that comes out is a different one, or the
token has no property left and is dropped.

So a class name keeps its name under reading exactly if the property is safe
(`renamed_className_eq_iff`). The value does not matter. A second reading settles
the matter in any case: a property that was read from a class name is safe, and
the name it is given stays (`renamed_of_renamed_className`).

## Main definitions

* `renamed`: The class name that takes the place of a token.

## Theorems

* `property_ne_nil_of_read`, `value_ne_nil_of_read`: Neither half is empty.
* `tilde_not_mem_of_read`: No tilde is left in a value that was read.
* `read_className`: A class name is read from its first underscore.
* `read_className_of_safe`: A safe property is read back.
* `renamed_className_ne`: Any other property is cut at its first escape.
* `renamed_className_eq_iff`: Which class names keep their name.
* `safe_of_read_className`: A property that is read from a class name is safe.
* `renamed_of_renamed_className`: A second reading is the last that changes a name.
-/

namespace AtomicCss

namespace Token

open Text

/-- The class name that takes the place of a token, if it has a directive. -/
def renamed (m : SchemeMatch) (token : String) : Option String :=
  (read m token).toOption.map Directive.className

theorem renamed_eq_some_iff (m : SchemeMatch) (token name : String) :
    renamed m token = some name ↔ ∃ d, read m token = .ok d ∧ d.className = name := by
  rw [renamed, Option.map_eq_some_iff]
  refine exists_congr (fun d => and_congr_left (fun _ => ?_))
  cases read m token <;> simp [Except.toOption]

theorem property_ne_nil_of_read (m : SchemeMatch) (token : String) (d : Directive)
    (h : read m token = .ok d) : d.property.toList ≠ [] := by
  rcases (read_eq_ok_iff m token d).1 h with ⟨_, hcu, _, rfl⟩
  rw [declared, Escape.toList_decode, String.toList_ofList]
  refine Escape.decodeChars_ne_nil _ (fun hnil => ?_)
  rw [List.drop_eq_nil_iff, length_take_idxOf] at hnil
  omega

theorem value_ne_nil_of_read (m : SchemeMatch) (token : String) (d : Directive)
    (h : read m token = .ok d) : d.value.toList ≠ [] := by
  rcases (read_eq_ok_iff m token d).1 h with ⟨_, _, hend, rfl⟩
  rw [declared, Escape.toList_decode, String.toList_ofList]
  refine Escape.decodeChars_ne_nil _ (fun hnil => ?_)
  rw [List.drop_eq_nil_iff] at hnil
  omega

theorem tilde_not_mem_of_read (m : SchemeMatch) (token : String) (d : Directive)
    (h : read m token = .ok d) : '~' ∉ d.value.toList := by
  rcases (read_eq_ok_iff m token d).1 h with ⟨_, _, _, rfl⟩
  rw [declared, Escape.toList_decode]
  exact Escape.tilde_not_mem_decodeChars _

theorem detect_of_no_dot (m : SchemeMatch) (t : List Char) (h : '.' ∉ t) :
    ColorScheme.detect m t = none := by
  cases m with
  | anywhere =>
      refine (ColorScheme.detect_anywhere_eq_none_iff t).2 (fun scheme hmarker => ?_)
      exact h (scheme.dot_mem_of_occurs t hmarker)
  | leading =>
      cases hfound : ColorScheme.detect .leading t with
      | none => rfl
      | some found =>
          have hopens := (ColorScheme.detect_leading_eq_some_iff t found.2 found.1).1 hfound
          have hmarker : found.1.marker.toList <:+: t := by
            rw [hopens]
            exact (List.prefix_append _ _).isInfix
          exact absurd (found.1.dot_mem_of_occurs t hmarker) h

/-- A class name has no prefixes, so all of it is declaration. -/
theorem read_className (m : SchemeMatch) (d : Directive) :
    read m d.className = (splitDeclaration d.className.toList).map fun halves =>
      { property := Escape.decode (String.ofList halves.1)
        value := Escape.decode (String.ofList halves.2)
        media := none
        selector := "" } := by
  have hat : namedBreakpoint d.className.toList = none :=
    if_neg (d.not_mem_className '@' (by decide) (by decide))
  have hwithout : withoutBreakpoint d.className.toList = d.className.toList := by
    rw [withoutBreakpoint, hat]
    rfl
  have hdetect := detect_of_no_dot m _ (d.not_mem_className '.' (by decide) (by decide))
  have hscope : scope m d.className.toList = none := by
    rw [scope, hwithout, hdetect, hat]
    rfl
  have hrest : withoutScope m d.className.toList = d.className.toList := by
    rw [withoutScope, hwithout, hdetect]
  have hchain : peelChain d.className.toList = ([], d.className.toList) := by
    rw [peelChain]
    split
    · rfl
    · next hcut =>
      rw [cutAt_of_not_mem ':' _ (d.not_mem_className ':' (by decide) (by decide))] at hcut
      exact absurd hcut (by simp only [reduceCtorEq, not_false_eq_true])
  rw [read_eq, hrest, hscope, hchain]

theorem splitDeclaration_append (property value : List Char) (h : '_' ∉ property)
    (hproperty : property ≠ []) (hvalue : value ≠ []) :
    splitDeclaration (property ++ '_' :: value) = .ok (property, value) := by
  rw [splitDeclaration, cutAt_eq_some_iff.2 ⟨rfl, h⟩]
  simp only [List.isEmpty_iff, if_neg hproperty, if_neg hvalue]

/-- The halves of a declaration are the text on either side of its first
    underscore. -/
theorem eq_append_of_splitDeclaration (t property value : List Char)
    (h : splitDeclaration t = .ok (property, value)) :
    t = property ++ '_' :: value ∧ '_' ∉ property := by
  unfold splitDeclaration at h
  cases hcut : cutAt '_' t with
  | none =>
      rw [hcut] at h
      exact absurd h (by simp only [reduceCtorEq, not_false_eq_true])
  | some cut =>
      rw [hcut] at h
      -- Two of the three answers are errors.
      by_cases hp : cut.1.isEmpty = true
      · simp only [if_pos hp, reduceCtorEq] at h
      · by_cases hv : cut.2.isEmpty = true
        · simp only [if_neg hp, if_pos hv, reduceCtorEq] at h
        · simp only [if_neg hp, if_neg hv, Except.ok.injEq, Prod.mk.injEq] at h
          rw [← h.1, ← h.2]
          exact cutAt_eq_some_iff.1 hcut

theorem underscore_not_mem_of_safe (s : List Char) (h : ∀ c ∈ s, c.isAlphanum = true) : '_' ∉ s :=
  fun hmem => Escape.ne_underscore_of_safe '_' (h '_' hmem) rfl

/-- The name of a directive with a safe property reads back as its declaration. -/
theorem read_className_of_safe (m : SchemeMatch) (d : Directive) (hproperty : d.property.toList ≠ [])
    (hvalue : d.value.toList ≠ []) (htilde : '~' ∉ d.value.toList)
    (hsafe : ∀ c ∈ d.property.toList, c.isAlphanum = true) :
    read m d.className = .ok { d with media := none, selector := "" } := by
  have hsplit : splitDeclaration d.className.toList
      = .ok (d.property.toList, Escape.encodeChars d.value.toList) := by
    rw [Directive.toList_className, Escape.encodeChars_of_safe _ hsafe]
    exact splitDeclaration_append _ _ (underscore_not_mem_of_safe _ hsafe) hproperty
      (Escape.encodeChars_ne_nil _ hvalue)
  rw [read_className, hsplit, Except.map]
  simp only [Escape.decode, String.toList_ofList, Escape.decodeChars_of_safe _ hsafe,
    Escape.decodeChars_encodeChars _ htilde, String.ofList_toList]

/-- A character that is not safe is written with a digit behind its first fence. -/
theorem encodeChars_of_first_escaped (a b : List Char) (c : Char)
    (hsafe : ∀ x ∈ a, x.isAlphanum = true) (hc : ¬ c.isAlphanum = true) :
    ∃ d rest, d.isDigit = true ∧ Escape.encodeChars (a ++ c :: b) = a ++ '_' :: '_' :: d :: rest := by
  rcases Escape.encodeChar_eq_cons_of_escaped c hc with ⟨d, more, hd, hescape⟩
  refine ⟨d, more ++ Escape.encodeChars b, hd, ?_⟩
  rw [Escape.encodeChars_append, Escape.encodeChars_of_safe a hsafe, Escape.encodeChars_cons, hescape]
  rfl

/-- The name of a directive whose property is not safe is cut at the first escape
    in it. What stands before the escape is read as the property, and nothing is
    read if the escape stands at the front. -/
theorem read_className_of_escaped (m : SchemeMatch) (d : Directive) (a b : List Char) (c : Char)
    (hproperty : d.property.toList = a ++ c :: b) (hsafe : ∀ x ∈ a, x.isAlphanum = true)
    (hc : ¬ c.isAlphanum = true) :
    ∃ digit rest, digit.isDigit = true ∧ d.className.toList = a ++ '_' :: '_' :: digit :: rest ∧
      read m d.className = if a = [] then .error .emptyProperty else
        .ok {
          property := String.ofList a
          value := Escape.decode (String.ofList ('_' :: digit :: rest))
          media := none
          selector := "" } := by
  rcases encodeChars_of_first_escaped a b c hsafe hc with ⟨digit, more, hdigit, hencode⟩
  have hname : d.className.toList
      = a ++ '_' :: '_' :: digit :: (more ++ '_' :: Escape.encodeChars d.value.toList) := by
    rw [Directive.toList_className, hproperty, hencode]
    simp only [List.append_assoc, List.cons_append]
  refine ⟨digit, _, hdigit, hname, ?_⟩
  rw [read_className, hname]
  -- The first underscore is that of the escape, and what stands before it is the property.
  by_cases ha : a = []
  · rw [if_pos ha, ha]
    rfl
  · rw [if_neg ha, splitDeclaration_append a _ (underscore_not_mem_of_safe a hsafe) ha
      (List.cons_ne_nil _ _), Except.map, Escape.decode, String.toList_ofList,
      Escape.decodeChars_of_safe a hsafe]

/-- A class name whose property is not safe does not keep its name: it is dropped,
    or the escape that was cut open is written out again, fence by fence. -/
theorem renamed_className_ne (m : SchemeMatch) (d : Directive)
    (h : ¬ ∀ c ∈ d.property.toList, c.isAlphanum = true) :
    renamed m d.className ≠ some d.className := by
  -- The first character that is not safe decides where the name is cut.
  have hfind : ∃ c, d.property.toList.find? (fun c => !c.isAlphanum) = some c := by
    rw [← Option.isSome_iff_exists, List.find?_isSome]
    simpa only [Bool.not_eq_true', not_forall, Bool.not_eq_true, exists_prop] using h
  rcases hfind with ⟨c, hc⟩
  rcases List.find?_eq_some_iff_append.1 hc with ⟨hescaped, a, b, hproperty, hsafe⟩
  rcases read_className_of_escaped m d a b c hproperty (by simpa using hsafe) (by simpa using hescaped)
    with ⟨digit, rest, hdigit, hname, hread⟩
  rw [renamed, hread]
  by_cases ha : a = []
  · rw [if_pos ha]
    exact fun hnone => absurd hnone (by simp only [Except.toOption, Option.map_none, reduceCtorEq,
      not_false_eq_true])
  · rw [if_neg ha]
    intro hsame
    -- Behind the part that is safe, the name would be the encoding of what was
    -- read from its broken escape.
    have hchars := congrArg String.toList (Option.some.inj hsame)
    rw [Directive.toList_className, hname, String.toList_ofList,
      Escape.encodeChars_of_safe a (by simpa using hsafe), Escape.toList_decode,
      String.toList_ofList] at hchars
    exact Escape.encodeChars_ne_underscore_digit _ digit rest hdigit
      (List.cons.inj (List.append_cancel_left hchars)).2

/-- A class name that came from a token keeps its name under reading exactly if
    its property is safe. -/
theorem renamed_className_eq_iff (m m' : SchemeMatch) (token : String) (d : Directive)
    (h : read m' token = .ok d) :
    renamed m d.className = some d.className ↔ ∀ c ∈ d.property.toList, c.isAlphanum = true := by
  constructor
  · intro hsame
    by_contra hescaped
    exact renamed_className_ne m d hescaped hsame
  · intro hsafe
    rw [renamed, read_className_of_safe m d (property_ne_nil_of_read m' token d h)
      (value_ne_nil_of_read m' token d h) (tilde_not_mem_of_read m' token d h) hsafe]
    rfl

/-- Whatever is read from a class name has a safe property: it stands before the
    first underscore, and a class name has nothing else in it that is not safe. -/
theorem safe_of_read_className (m : SchemeMatch) (d d' : Directive)
    (h : read m d.className = .ok d') : ∀ c ∈ d'.property.toList, c.isAlphanum = true := by
  rw [read_className] at h
  cases hsplit : splitDeclaration d.className.toList with
  | error reason =>
      rw [hsplit, Except.map] at h
      exact absurd h (by simp only [reduceCtorEq, not_false_eq_true])
  | ok halves =>
      rcases eq_append_of_splitDeclaration _ _ _ hsplit with ⟨hname, hfree⟩
      have hsafe : ∀ c ∈ halves.1, c.isAlphanum = true := by
        intro c hc
        have hmem : c ∈ d.className.toList := by
          rw [hname]
          exact List.mem_append_left _ hc
        rcases d.safe_or_underscore_of_mem_className c hmem with halnum | hunderscore
        · exact halnum
        · rw [hunderscore] at hc
          exact absurd hc hfree
      rw [hsplit, Except.map, Except.ok.injEq] at h
      rw [← h, Escape.toList_decode, String.toList_ofList, Escape.decodeChars_of_safe _ hsafe]
      exact hsafe

/-- A name that took the place of a class name is not replaced again. -/
theorem renamed_of_renamed_className (m : SchemeMatch) (d : Directive) (name : String)
    (h : renamed m d.className = some name) : renamed m name = some name := by
  rcases (renamed_eq_some_iff m d.className name).1 h with ⟨d', hread, rfl⟩
  exact (renamed_className_eq_iff m m d.className d' hread).2 (safe_of_read_className m d d' hread)

end Token

end AtomicCss
