import AtomicCss.Proofs.Stylesheet.Laws
import AtomicCss.Proofs.Synthesis.Compile

/-!
# Attributes in Sequence

A class attribute does what its words do, one after the other.

The synthesizer reads its tokens with the reader of the grammar and does not go
through `Token.parse`, which leaves another record of a failure. Both give the
same directives, and compiling is said here in terms of `Token.parse`: the rules
of the attribute are those of the words that have a directive, they come behind
the rules that were there, and the compiled attribute is the list of names. A
name is a word, so splitting finds the list again.

Two attributes with a blank between them are one attribute, and it does not
matter whether they are compiled as one or in sequence. The blank may be of any
kind and as long as it likes, since a run of blanks has no word in it. Nothing
passes from one word to the next except the sheet, and a word without a directive
leaves the sheet alone, so words of that kind can be left out anywhere
(`compile_leave_out`).

## Theorems

* `Token.value_parse`: The two ways to read a token agree.
* `directives_append`: The directives of two attributes with blanks between them.
* `compile_append`: Two attributes compiled as one.
* `compile_leave_out`: Words without a directive do not matter.
* `compile_in_order`: What compiling appends and what it answers.
-/

namespace AtomicCss

open Text

variable {σ : Type} [Stylesheet σ]

/-- The two ways to read a token agree. -/
theorem Token.value_parse (m : SchemeMatch) (token : String) :
    (Token.parse m token).value = (Token.read m token).toOption := by
  unfold Token.parse
  cases Token.read m token with
  | ok d => rfl
  | error reason => rfl

/-- The directives that `Token.parse` finds in an attribute. -/
theorem filterMap_parse (m : SchemeMatch) (attr : String) :
    ((words attr).filterMap fun token => (Token.parse m token).value) = directives m attr :=
  congrArg (fun parsed => (words attr).filterMap parsed) (funext (Token.value_parse m))

/-- A run of blanks keeps the directives on its two sides apart. -/
theorem directives_append (m : SchemeMatch) (a w b : String) (hw : w ≠ "")
    (h : ∀ c ∈ w.toList, isBlank c = true) :
    directives m (a ++ w ++ b) = directives m a ++ directives m b := by
  rw [directives, words_append_blanks a w b hw h, List.filterMap_append]
  rfl

/-- Adding two lists of rules one after the other. -/
theorem Stylesheet.appendAll_append (sheet : σ) (rules more : List String) :
    Stylesheet.appendAll sheet (rules ++ more) =
      Stylesheet.appendAll (Stylesheet.appendAll sheet rules) more :=
  List.foldl_append

namespace Synthesizer

/-- Splitting a compiled attribute gives the names that it was joined from. -/
theorem words_compile (s : Synthesizer σ) (attr : String) :
    words (s.compile attr).value.1 =
      (directives s.config.schemeMatch attr).map Directive.className := by
  rw [compile_value]
  exact words_intercalate _ (isWord_of_mem_names _)

/-- Two attributes with blanks between them, compiled as one, do what they do one
    after the other. -/
theorem compile_append (s : Synthesizer σ) (a w b : String) (hw : w ≠ "")
    (h : ∀ c ∈ w.toList, isBlank c = true) :
    let first := (s.compile a).value
    let second := (first.2.compile b).value
    (s.compile (a ++ w ++ b)).value.2 = second.2 ∧
      words (s.compile (a ++ w ++ b)).value.1 = words first.1 ++ words second.1 := by
  intro first second
  have hfirst : first = _ := compile_value s a
  -- The second part is read under the configuration of the first.
  have hconfig : first.2.config = s.config := by rw [hfirst]
  constructor
  · have hsecond : second.2 = _ := congrArg Prod.snd (compile_value first.2 b)
    rw [hsecond, hfirst, compile_value, directives_append _ a w b hw h]
    dsimp only
    rw [List.map_append, Stylesheet.appendAll_append]
  · rw [words_compile, words_compile s a, words_compile first.2 b, hconfig,
      directives_append _ a w b hw h, List.map_append]

/-- Words without a directive can be left out, whatever stands on their two sides. -/
theorem compile_leave_out (s : Synthesizer σ) (a w t w' b : String) (hw : w ≠ "") (hw' : w' ≠ "")
    (h : ∀ c ∈ w.toList, isBlank c = true) (h' : ∀ c ∈ w'.toList, isBlank c = true)
    (hnone : directives s.config.schemeMatch t = []) :
    (s.compile (a ++ w ++ t ++ w' ++ b)).value = (s.compile (a ++ w ++ b)).value := by
  have hsame : directives s.config.schemeMatch (a ++ w ++ t ++ w' ++ b) =
      directives s.config.schemeMatch (a ++ w ++ b) := by
    rw [directives_append _ (a ++ w ++ t) w' b hw' h', directives_append _ a w t hw h, hnone,
      List.append_nil, directives_append _ a w b hw h]
  rw [compile_value, compile_value, hsame]

/-- What a class attribute does. Its words are parsed in order and those without a
    directive are left out. The answer is the names of the directives, joined by
    single spaces, and splitting the answer finds them again. The sheet has their
    rules added, which in memory means behind the rules that were there. An
    attribute in two parts with blanks between them does what the parts do in
    sequence, and a part without directives does nothing. -/
theorem compile_in_order (s : Synthesizer σ) (attr : String) :
    let parsed := fun text => (words text).filterMap fun token =>
      (Token.parse s.config.schemeMatch token).value
    let made := (s.compile attr).value
    made.1 = String.intercalate " " ((parsed attr).map Directive.className) ∧
    words made.1 = (parsed attr).map Directive.className ∧
    made.2 = { s with
      sheet := Stylesheet.appendAll s.sheet ((parsed attr).map Directive.ruleText) } ∧
    (∀ sheet : MemorySheet,
      ((⟨sheet, s.config⟩ : Synthesizer MemorySheet).compile attr).value.2.sheet.rules.toList =
        sheet.rules.toList ++ (parsed attr).map Directive.ruleText) ∧
    (∀ a w b, attr = a ++ w ++ b → w ≠ "" → (∀ c ∈ w.toList, isBlank c = true) →
      let first := (s.compile a).value
      let second := (first.2.compile b).value
      made.2 = second.2 ∧ words made.1 = words first.1 ++ words second.1) ∧
    ∀ a w t w' b, attr = a ++ w ++ t ++ w' ++ b → w ≠ "" → w' ≠ "" →
      (∀ c ∈ w.toList, isBlank c = true) → (∀ c ∈ w'.toList, isBlank c = true) →
      parsed t = [] → made = (s.compile (a ++ w ++ b)).value := by
  intro parsed made
  have hparsed : ∀ text, parsed text = directives s.config.schemeMatch text :=
    filterMap_parse s.config.schemeMatch
  have hmade : made = _ := compile_value s attr
  -- Both readers find the same directives, so all of it is said of `directives`.
  rw [hparsed]
  refine ⟨congrArg Prod.fst hmade, words_compile s attr, congrArg Prod.snd hmade, ?_, ?_, ?_⟩
  · intro sheet
    rw [compile_value, MemorySheet.rules_appendAll, Array.toList_append]
  · intro a w b hattr hw h
    rw [show made = (s.compile attr).value from rfl, hattr]
    exact compile_append s a w b hw h
  · intro a w t w' b hattr hw hw' h h' hnone
    rw [hparsed] at hnone
    rw [show made = (s.compile attr).value from rfl, hattr]
    exact compile_leave_out s a w t w' b hw hw' h h' hnone

/-- A wide space, a no-break space and a tab, a word without a directive between
    them, and a rule that was there before. -/
theorem compile_in_order_wide_space :
    let s : Synthesizer MemorySheet := ⟨⟨#[".a\x7b\x7d"]⟩, {}⟩
    let attr := "hover:color_red\u3000plain\u00a0\tgap_1px"
    let made := (s.compile attr).value
    made.1 = "color_red gap_1px" ∧ words made.1 = ["color_red", "gap_1px"] ∧
    made.2.sheet.rules.toList =
      [".a\x7b\x7d", ".color_red:hover\x7bcolor:red\x7d", ".gap_1px\x7bgap:1px\x7d"] ∧
    made.2 = ((s.compile "hover:color_red\u3000plain").value.2.compile "gap_1px").value.2 ∧
    made = (s.compile "hover:color_red\u3000gap_1px").value := by
  intro s attr made
  have hwide : ∀ c ∈ "\u3000".toList, isBlank c = true := List.all_eq_true.1 (by decide +kernel)
  have hmixed : ∀ c ∈ "\u00a0\t".toList, isBlank c = true :=
    List.all_eq_true.1 (by decide +kernel)
  rcases compile_in_order s attr with ⟨hanswer, hwords, _, hrules, hsequence, hleave⟩
  refine ⟨?_, ?_, ?_, ?_, ?_⟩
  · rw [hanswer]
    decide +kernel
  · rw [hwords]
    decide +kernel
  · rw [hrules ⟨#[".a\x7b\x7d"]⟩]
    decide +kernel
  · exact (hsequence "hover:color_red\u3000plain" "\u00a0\t" "gap_1px" (by decide +kernel)
      (by decide +kernel) hmixed).1
  · exact hleave "hover:color_red" "\u3000" "plain" "\u00a0\t" "gap_1px" (by decide +kernel)
      (by decide +kernel) (by decide +kernel) hwide hmixed (by decide +kernel)

end Synthesizer

end AtomicCss
