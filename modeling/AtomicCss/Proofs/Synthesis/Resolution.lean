import AtomicCss.Proofs.Synthesis.Compile
import AtomicCss.Proofs.Token.ClassName

/-!
# Compiling a Compiled Attribute

Which class attributes stay as they are when they are compiled twice.

A compiled attribute is a list of class names, and class names are tokens. Where
the second compilation gives each name back, the attribute is stable. A name is
given back exactly if the property it was made for is safe, and names neither
help nor harm each other: if one of them is dropped, the list is shorter than it
was, and if one of them changes, the list differs at that place. So an attribute
is stable exactly if every directive in it has a safe property.

That excludes every property with a hyphen, custom properties included. The
attribute `background-color_red` compiles to a name whose property part is
written with an escape, and the second reading ends the property at the fence of
that escape. It happens once: the names of the second compilation have safe
properties, whatever the first one wrote, and a third changes nothing
(`compile_settles`).

## Theorems

* `filterMap_eq_self_iff`: When picking and changing leaves a list alone.
* `compile_words`: Compiling joined words renames each of them.
* `compile_settles`: Compiling twice is enough.
* `compile_compile_eq_iff`: Which attributes are stable under compiling.
* `compile_compile_hyphen_ne`: One with a hyphen is not.
-/

namespace AtomicCss

open Text

variable {σ : Type} [Stylesheet σ]

/-- Picking elements and changing them leaves a list alone only if each element
    is picked and none is changed. One that is not picked cannot be made up for,
    because the list would be shorter. -/
theorem filterMap_eq_self_iff {α : Type} (f : α → Option α) (l : List α) :
    l.filterMap f = l ↔ ∀ a ∈ l, f a = some a := by
  induction l with
  | nil => simp only [List.filterMap_nil, List.not_mem_nil, false_implies, implies_true]
  | cons a rest ih =>
      rw [List.filterMap_cons, List.forall_mem_cons, ← ih]
      cases hf : f a with
      | none =>
          have hlen := List.length_filterMap_le f rest
          constructor
          · intro heq
            have hsame : (rest.filterMap f).length = (a :: rest).length := congrArg List.length heq
            rw [List.length_cons] at hsame
            omega
          · intro h
            exact absurd h.1 (by simp only [reduceCtorEq, not_false_eq_true])
      | some b => rw [List.cons.injEq, Option.some.injEq]

namespace Synthesizer

/-- Compiling words that were joined renames each of them on its own. -/
theorem compile_words (s : Synthesizer σ) (names : List String) (h : ∀ name ∈ names, IsWord name) :
    (s.compile (String.intercalate " " names)).value.1 =
      String.intercalate " " (names.filterMap (Token.renamed s.config.schemeMatch)) := by
  rw [compile_value, directives, words_intercalate names h, List.map_filterMap]
  rfl

theorem compile_names (s : Synthesizer σ) (ds : List Directive) :
    (s.compile (String.intercalate " " (ds.map Directive.className))).value.1 =
      String.intercalate " "
        ((ds.map Directive.className).filterMap (Token.renamed s.config.schemeMatch)) :=
  s.compile_words _ (isWord_of_mem_names ds)

/-- A name that took the place of another is a word. -/
theorem isWord_of_mem_renamed (m : SchemeMatch) (names : List String) (name : String)
    (h : name ∈ names.filterMap (Token.renamed m)) : IsWord name := by
  rcases List.mem_filterMap.1 h with ⟨token, _, hname⟩
  rcases Option.map_eq_some_iff.1 hname with ⟨d, _, rfl⟩
  exact d.isWord_className

/-- Compiling twice is enough. What the first compilation wrote is made of class
    names, and no class name is replaced more than once. -/
theorem compile_settles (s : Synthesizer σ) (attr : String) :
    let twice := (s.compile (s.compile attr).value.1).value.1
    (s.compile twice).value.1 = twice := by
  intro twice
  have htwice : twice = String.intercalate " "
      (((directives s.config.schemeMatch attr).map Directive.className).filterMap
        (Token.renamed s.config.schemeMatch)) := by
    rw [← compile_names s]
    exact congrArg (fun once => (s.compile once).value.1) (congrArg Prod.fst (s.compile_value attr))
  rw [htwice, compile_words s _ (isWord_of_mem_renamed _ _)]
  refine congrArg _ ((filterMap_eq_self_iff _ _).2 (fun name hname => ?_))
  rcases List.mem_filterMap.1 hname with ⟨token, htoken, hrenamed⟩
  rcases List.mem_map.1 htoken with ⟨d, _, rfl⟩
  exact Token.renamed_of_renamed_className _ d name hrenamed

/-- Compiling a compiled attribute changes nothing exactly if every directive that
    was found in it has a property of ASCII letters and digits only. -/
theorem compile_compile_eq_iff (s : Synthesizer σ) (attr : String) :
    let first := (s.compile attr).value
    (first.2.compile first.1).value.1 = first.1 ↔
      ∀ token ∈ words attr, ∀ d, Token.read s.config.schemeMatch token = .ok d →
        ∀ c ∈ d.property.toList, c.isAlphanum = true := by
  intro first
  have hfirst : first = _ := compile_value s attr
  have hsecond := compile_names first.2 (directives s.config.schemeMatch attr)
  rw [hfirst] at hsecond ⊢
  rw [hsecond]
  -- Both sides are joined words, so they agree if the lists of words do.
  have hlists : ∀ names : List String, (∀ name ∈ names, IsWord name) →
      (String.intercalate " " (names.filterMap (Token.renamed s.config.schemeMatch))
        = String.intercalate " " names ↔
      names.filterMap (Token.renamed s.config.schemeMatch) = names) := by
    intro names hnames
    constructor
    · exact intercalate_injective _ _ (isWord_of_mem_renamed s.config.schemeMatch names) hnames
    · exact fun heq => by rw [heq]
  rw [hlists _ (isWord_of_mem_names _), filterMap_eq_self_iff]
  constructor
  · intro hstable token htoken d hread
    have hmem : d ∈ directives s.config.schemeMatch attr :=
      (mem_directives _ _ _).2 ⟨token, htoken, hread⟩
    exact (Token.renamed_className_eq_iff _ _ token d hread).1
      (hstable _ (List.mem_map_of_mem hmem))
  · intro hsafe name hname
    rcases List.mem_map.1 hname with ⟨d, hmem, rfl⟩
    rcases (mem_directives _ _ _).1 hmem with ⟨token, htoken, hread⟩
    exact (Token.renamed_className_eq_iff _ _ token d hread).2 (hsafe token htoken d hread)

/-- The name of a property with a hyphen, compiled twice. -/
theorem compile_compile_hyphen_ne :
    let s : Synthesizer MemorySheet := { sheet := {}, config := {} }
    let first := (s.compile "background-color_red").value
    let second := (first.2.compile first.1).value
    first.1 = "background__45__color_red" ∧
      second.1 = "background___95__45__95____95__color__95__red" ∧ second.1 ≠ first.1 := by
  decide +kernel

end Synthesizer

end AtomicCss
