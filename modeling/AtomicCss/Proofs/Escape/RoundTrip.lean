import AtomicCss.Proofs.Escape.Reader

/-!
# The Round Trip of Escaping

Reading gives back what was written, in front of any text.

An encoded text rarely stands alone. A class name has an underscore and a second
encoded text behind it, and authors put encoded and plain pieces side by side.
The equation is therefore stated with a text that follows: reading an encoded
text and then anything is the text, and then what is read from the rest. Nothing
that follows can reach back into the encoded part, not even an underscore that
meets its last fence or digits that meet its last digit.

The tilde is the one exception and it is no accident. It is a spelling of the
space that only reading knows, so a text that holds tildes comes back with spaces
in their place. Text without tildes comes back as it was.

The induction is on the text that was written, one character at a time. A safe
character stands for itself and opens no escape; any other is an escape that the
reader takes as a whole.

## Main definitions

* `tildesToSpaces`: A text with a space in place of each tilde.

## Theorems

* `safe_or_underscore_of_mem_encodeChars`: The alphabet of encoded text.
* `unescape_encodeChars_append`: Reading undoes writing, tildes apart.
* `decodeChars_encodeChars`: A text without tildes comes back.
* `decodeChars_of_safe`: A safe text stands for itself.
* `tilde_not_mem_decodeChars`: Reading leaves no tilde.
* `decode_of_not_mem`: Without underscores and tildes there is nothing to read.
* `encodeChars_ne_underscore_digit`: No encoding begins inside an escape.
* `decode_encode_append`: The round trip in front of any text.
-/

namespace AtomicCss

namespace Escape

open Text

/-- A text with a space in place of each tilde. -/
def tildesToSpaces (s : String) : String :=
  s.map fun c => if c = '~' then ' ' else c

theorem encodeChar_of_safe (c : Char) (h : c.isAlphanum = true) : encodeChar c = [c] := by
  rw [encodeChar, if_pos h]

theorem encodeChar_of_escaped (c : Char) (h : ¬ c.isAlphanum = true) :
    encodeChar c = fence ++ Nat.toDigits 10 c.toNat ++ fence := by
  rw [encodeChar, if_neg h]

/-- An escape opens with two underscores and a digit. -/
theorem encodeChar_eq_cons_of_escaped (c : Char) (h : ¬ c.isAlphanum = true) :
    ∃ d rest, d.isDigit = true ∧ encodeChar c = '_' :: '_' :: d :: rest := by
  cases hdigits : Nat.toDigits 10 c.toNat with
  | nil => exact absurd hdigits Nat.toDigits_ne_nil
  | cons d more =>
      have hd : d ∈ Nat.toDigits 10 c.toNat := by
        rw [hdigits]
        exact List.mem_cons_self
      refine ⟨d, more ++ fence, Nat.isDigit_of_mem_toDigits (by omega) (by omega) hd, ?_⟩
      rw [encodeChar_of_escaped c h, hdigits]
      rfl

theorem encodeChars_cons (c : Char) (s : List Char) :
    encodeChars (c :: s) = encodeChar c ++ encodeChars s := rfl

theorem encodeChars_append (s t : List Char) :
    encodeChars (s ++ t) = encodeChars s ++ encodeChars t := by
  rw [encodeChars, encodeChars, encodeChars, List.flatMap_append]

/-- A safe text is its own encoding. -/
theorem encodeChars_of_safe (s : List Char) (h : ∀ c ∈ s, c.isAlphanum = true) :
    encodeChars s = s := by
  induction s with
  | nil => rfl
  | cons c rest ih =>
      rw [encodeChars_cons, encodeChar_of_safe c (h c List.mem_cons_self),
        ih (fun d hd => h d (List.mem_cons_of_mem c hd)), List.singleton_append]

/-- Encoded text is made of letters, digits and underscores. -/
theorem safe_or_underscore_of_mem_encodeChars (s : List Char) (c : Char) (h : c ∈ encodeChars s) :
    c.isAlphanum = true ∨ c = '_' := by
  have hfence : c ∈ fence → c = '_' := by
    simp only [fence, List.mem_cons, List.not_mem_nil, or_false, or_self, imp_self]
  rw [encodeChars, List.mem_flatMap] at h
  rcases h with ⟨d, _, hc⟩
  -- The character is one that stands for itself, or a piece of some escape.
  by_cases hd : d.isAlphanum = true
  · rw [encodeChar_of_safe d hd, List.mem_singleton] at hc
    rw [hc]
    exact Or.inl hd
  · rw [encodeChar_of_escaped d hd, List.mem_append, List.mem_append] at hc
    rcases hc with (hopen | hdigit) | hclose
    · exact Or.inr (hfence hopen)
    · have hc : c.isDigit = true := Nat.isDigit_of_mem_toDigits (by omega) (by omega) hdigit
      exact Or.inl (by rw [Char.isAlphanum, hc, Bool.or_true])
    · exact Or.inr (hfence hclose)

theorem ne_underscore_of_safe (c : Char) (h : c.isAlphanum = true) : c ≠ '_' := by
  intro hc
  rw [hc] at h
  exact absurd h (by decide)

/-- The escape of a character reads back as that character, whatever follows. -/
theorem readEscape?_encodeChar (c : Char) (s : List Char) (h : ¬ c.isAlphanum = true) :
    readEscape? (encodeChar c ++ s) = some (c, s) := by
  have hdigit : ∀ d ∈ Nat.toDigits 10 c.toNat, d.isDigit = true :=
    fun d hd => Nat.isDigit_of_mem_toDigits (by omega) (by omega) hd
  rw [encodeChar_of_escaped c h, readEscape?_digits _ s Nat.toDigits_ne_nil hdigit,
    Nat.ofDigitChars_ten_toDigits, charOfCode?_toNat, Option.map_some]

theorem unescape_encodeChar_append (c : Char) (s : List Char) :
    unescape (encodeChar c ++ s) = c :: unescape s := by
  by_cases h : c.isAlphanum = true
  · rw [encodeChar_of_safe c h, List.singleton_append,
      unescape_cons_of_ne c s (ne_underscore_of_safe c h)]
  · exact unescape_of_readEscape? _ s c (readEscape?_encodeChar c s h)

/-- Reading undoes writing, tildes apart. -/
theorem unescape_encodeChars_append (x s : List Char) :
    unescape (encodeChars x ++ s) = x ++ unescape s := by
  induction x with
  | nil => rfl
  | cons c rest ih =>
      rw [encodeChars_cons, List.append_assoc, unescape_encodeChar_append, ih, List.cons_append]

theorem decodeChars_encodeChars_append (x s : List Char) :
    decodeChars (encodeChars x ++ s)
      = (x.map fun c => if c = '~' then ' ' else c) ++ decodeChars s := by
  rw [decodeChars, unescape_encodeChars_append, List.map_append]
  rfl

theorem encodeChars_ne_nil (s : List Char) (h : s ≠ []) : encodeChars s ≠ [] := by
  intro hnil
  -- Nothing could be read back from an empty encoding.
  have hread := unescape_encodeChars_append s []
  rw [hnil, unescape_nil, List.append_nil, unescape_nil, List.append_nil] at hread
  exact h hread.symm

theorem decodeChars_nil : decodeChars [] = [] := by
  rw [decodeChars, unescape_nil, List.map_nil]

theorem map_tilde_of_not_mem (x : List Char) (h : '~' ∉ x) :
    (x.map fun c => if c = '~' then ' ' else c) = x := by
  conv => rhs; rw [← List.map_id x]
  refine List.map_congr_left (fun c hc => ?_)
  have hne : c ≠ '~' := by
    intro hct
    rw [hct] at hc
    exact h hc
  rw [if_neg hne, id_eq]

/-- A text without tildes comes back as it was written. -/
theorem decodeChars_encodeChars (x : List Char) (h : '~' ∉ x) :
    decodeChars (encodeChars x) = x := by
  rw [← List.append_nil (encodeChars x), decodeChars_encodeChars_append, map_tilde_of_not_mem x h,
    decodeChars_nil, List.append_nil]

/-- A safe text stands for itself. -/
theorem decodeChars_of_safe (x : List Char) (h : ∀ c ∈ x, c.isAlphanum = true) :
    decodeChars x = x := by
  have htilde : '~' ∉ x := fun hmem => absurd (h '~' hmem) (by decide)
  conv => lhs; rw [← encodeChars_of_safe x h]
  exact decodeChars_encodeChars x htilde

theorem decodeChars_ne_nil (s : List Char) (h : s ≠ []) : decodeChars s ≠ [] := by
  rw [decodeChars]
  exact fun hnil => unescape_ne_nil s h (List.map_eq_nil_iff.1 hnil)

/-- Every tilde is gone from a text that was read, also one that an escape names. -/
theorem tilde_not_mem_decodeChars (s : List Char) : '~' ∉ decodeChars s := by
  rw [decodeChars, List.mem_map]
  rintro ⟨c, _, hc⟩
  by_cases htilde : c = spaceMark
  · rw [if_pos htilde] at hc
    exact absurd hc (by decide)
  · rw [if_neg htilde] at hc
    exact htilde hc

/-- No encoding begins with a single underscore and a digit. Its first underscore
    is half of a fence, so a second one follows. A text that begins in the middle
    of an escape is therefore no encoding. -/
theorem encodeChars_ne_underscore_digit (s : List Char) (d : Char) (rest : List Char)
    (h : d.isDigit = true) : encodeChars s ≠ '_' :: d :: rest := by
  intro heq
  cases s with
  | nil => exact absurd heq (List.cons_ne_nil _ _).symm
  | cons c more =>
      rw [encodeChars_cons] at heq
      by_cases hc : c.isAlphanum = true
      · rw [encodeChar_of_safe c hc] at heq
        exact ne_underscore_of_safe c hc (List.cons.inj heq).1
      · rcases encodeChar_eq_cons_of_escaped c hc with ⟨e, tail, _, hescape⟩
        rw [hescape] at heq
        -- The second characters are the underscore of the fence and the digit.
        rw [← (List.cons.inj (List.cons.inj heq).2).1] at h
        exact absurd h (by decide)

theorem toList_encode (s : String) : (encode s).toList = encodeChars s.toList := by
  rw [encode, String.toList_ofList]

theorem toList_decode (s : String) : (decode s).toList = decodeChars s.toList := by
  rw [decode, String.toList_ofList]

/-- A text without underscores and tildes stands for itself. -/
theorem decode_of_not_mem (s : String) (h : '_' ∉ s.toList) (htilde : '~' ∉ s.toList) :
    decode s = s := by
  refine String.toList_injective ?_
  rw [toList_decode, decodeChars, unescape_of_not_mem _ h]
  exact map_tilde_of_not_mem _ htilde

theorem decode_ofList_encodeChars (s : String) :
    decode (String.ofList (encodeChars s.toList)) = tildesToSpaces s := by
  refine String.toList_injective ?_
  rw [toList_decode, String.toList_ofList, tildesToSpaces, String.toList_map,
    ← List.append_nil (encodeChars s.toList), decodeChars_encodeChars_append, decodeChars_nil,
    List.append_nil]

/-- Reading an encoded text in front of any other text is the first, with spaces
    for its tildes, and then what is read from the second. Alone and without
    tildes, the text comes back unchanged. -/
theorem decode_encode_append (x s : String) :
    decode (encode x ++ s) = tildesToSpaces x ++ decode s ∧
      ('~' ∉ x.toList → decode (encode x) = x) := by
  constructor
  · refine String.toList_injective ?_
    rw [toList_decode, String.toList_append, toList_encode, decodeChars_encodeChars_append,
      String.toList_append, tildesToSpaces, String.toList_map, toList_decode]
  · intro htilde
    refine String.toList_injective ?_
    rw [toList_decode, toList_encode, decodeChars_encodeChars x.toList htilde]

/-- Escapes side by side, and an underscore and digits that follow the last of
    them. -/
theorem decode_encode_append_dashes :
    decode (encode "--" ++ "_7__") = tildesToSpaces "--" ++ decode "_7__" ∧
      decode (encode "--") = "--" :=
  ⟨(decode_encode_append "--" "_7__").1, (decode_encode_append "--" "_7__").2 (by decide)⟩

end Escape

end AtomicCss
