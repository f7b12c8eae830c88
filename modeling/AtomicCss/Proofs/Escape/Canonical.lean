import AtomicCss.Proofs.Escape.Grammar
import AtomicCss.Proofs.Escape.RoundTrip
import Mathlib.Algebra.Group.Nat.Defs

/-!
# Canonical Text

Which of the many spellings of a text is the one that writing gives.

Reading accepts much that is never written. Zeros may lead in an escape, a letter
may be escaped or not, punctuation may stand as it is, a fence may open nothing, and
a space has two more spellings. Reading and then writing brings each of these to one
spelling, and this module says which texts are spelled that way already.

It says so piece by piece. A canonical text is a concatenation of safe characters
and of escapes, where an escape is of a character that needs one, and its numeral is
the shortest that there is. Nothing is said about writing here, and a numeral is
shortest among all that denote the number, however it comes about.

That numeral is the one that is written (`isShortest_iff`): of two numerals of one
length that denote the same number, the last digits agree, and then all of them. So
the canonical pieces are the encoded characters, the tilde apart, and the canonical
texts are the encodings of texts without tildes (`canonical_iff`). Both halves of the
theorem follow from this, since reading leaves no tilde and undoes writing where
there is none.

## Main definitions

* `IsShortest`: No other numeral of the number has fewer digits.
* `IsCanonicalPiece`: A safe character, or an escape as it should be.
* `Canonical`: A concatenation of such pieces.

## Theorems

* `ofDigitChars_injective`: Numerals of one length denote different numbers.
* `isShortest_iff`: The shortest numeral is the one that is written.
* `isCanonicalPiece_iff`: The canonical pieces are the encoded characters.
* `canonical_iff`: The canonical texts are the encodings.
* `encode_decode_eq_iff`: Reading and writing leaves a text as it is exactly if it is
  canonical, and makes any text canonical.
-/

namespace AtomicCss

namespace Escape

/-- The shortest numeral of a number. No other has fewer digits. -/
structure IsShortest (digits : List Char) (n : Nat) : Prop extends IsNumeral digits n where
  length_le : ∀ other, IsNumeral other n → digits.length ≤ other.length

/-- One piece of canonical text. Either it is a character that is safe as it stands,
    or the escape of one that is not, with the shortest numeral. A tilde has none,
    since it is read as a space. -/
inductive IsCanonicalPiece : List Char → Prop
  | safe (c : Char) (h : c.isAlphanum = true) : IsCanonicalPiece [c]
  | escape (c : Char) (digits : List Char) (h : ¬ c.isAlphanum = true) (htilde : c ≠ '~')
      (hdigits : IsShortest digits c.toNat) : IsCanonicalPiece (fence ++ digits ++ fence)

/-- Canonical text is made of canonical pieces. -/
def Canonical (t : List Char) : Prop :=
  ∃ pieces : List (List Char), (∀ piece ∈ pieces, IsCanonicalPiece piece) ∧ pieces.flatten = t

theorem digit_bounds (d : Char) (h : d.isDigit = true) :
    '0'.toNat ≤ d.toNat ∧ d.toNat - '0'.toNat < 10 := by
  have hd := Char.isDigit_iff_toNat.1 h
  have hnine : '9'.toNat = '0'.toNat + 9 := rfl
  omega

/-- Numerals of one length denote different numbers. -/
theorem ofDigitChars_injective (digits others : List Char) (n m : Nat)
    (hlength : digits.length = others.length) (hdigits : ∀ d ∈ digits, d.isDigit = true)
    (hothers : ∀ d ∈ others, d.isDigit = true)
    (h : Nat.ofDigitChars 10 digits n = Nat.ofDigitChars 10 others m) :
    n = m ∧ digits = others := by
  induction digits generalizing others n m with
  | nil =>
      rw [List.eq_nil_of_length_eq_zero hlength.symm] at h ⊢
      exact ⟨h, rfl⟩
  | cons d rest ih =>
      cases others with
      | nil => exact absurd hlength (Nat.succ_ne_zero _)
      | cons e more =>
          rw [Nat.ofDigitChars_cons, Nat.ofDigitChars_cons] at h
          have hd := digit_bounds d (hdigits d List.mem_cons_self)
          have he := digit_bounds e (hothers e List.mem_cons_self)
          rcases ih more _ _ (Nat.succ.inj hlength)
            (fun c hc => hdigits c (List.mem_cons_of_mem d hc))
            (fun c hc => hothers c (List.mem_cons_of_mem e hc)) h with ⟨hnext, hrest⟩
          -- Ten times a number leaves room for one digit, so the digits agree as well.
          have hcode : d.toNat = e.toNat := by omega
          refine ⟨by omega, ?_⟩
          rw [Char.toNat_inj.1 hcode, hrest]

/-- A numeral denotes a number with no more digits than it has itself. -/
theorem ofDigitChars_lt (digits : List Char) (n : Nat) (h : ∀ d ∈ digits, d.isDigit = true) :
    Nat.ofDigitChars 10 digits n < (n + 1) * 10 ^ digits.length := by
  induction digits generalizing n with
  | nil =>
      rw [List.length_nil, Nat.pow_zero, Nat.mul_one]
      exact Nat.lt_succ_self n
  | cons d rest ih =>
      have hd := digit_bounds d (h d List.mem_cons_self)
      rw [Nat.ofDigitChars_cons, List.length_cons, Nat.pow_succ']
      calc Nat.ofDigitChars 10 rest (10 * n + (d.toNat - '0'.toNat))
          < (10 * n + (d.toNat - '0'.toNat) + 1) * 10 ^ rest.length :=
            ih _ (fun e he => h e (List.mem_cons_of_mem d he))
        _ ≤ (n + 1) * 10 * 10 ^ rest.length := Nat.mul_le_mul_right _ (by omega)
        _ = (n + 1) * (10 * 10 ^ rest.length) := Nat.mul_assoc _ _ _

theorem isNumeral_toDigits (n : Nat) : IsNumeral (Nat.toDigits 10 n) n where
  ne_nil := Nat.toDigits_ne_nil
  isDigit _ hd := Nat.isDigit_of_mem_toDigits (by decide) (by decide) hd
  value := Nat.ofDigitChars_ten_toDigits

theorem length_toDigits_le_of_isNumeral (digits : List Char) (n : Nat) (h : IsNumeral digits n) :
    (Nat.toDigits 10 n).length ≤ digits.length := by
  rw [Nat.length_toDigits_le_iff (by decide) (List.length_pos_iff.2 h.ne_nil)]
  have hlt := ofDigitChars_lt digits 0 h.isDigit
  rw [h.value, Nat.zero_add, Nat.one_mul] at hlt
  exact hlt

/-- The shortest numeral is the one that is written. -/
theorem isShortest_iff (digits : List Char) (n : Nat) :
    IsShortest digits n ↔ digits = Nat.toDigits 10 n := by
  have hwritten := isNumeral_toDigits n
  constructor
  · intro h
    have hlength : digits.length = (Nat.toDigits 10 n).length :=
      Nat.le_antisymm (h.length_le _ hwritten)
        (length_toDigits_le_of_isNumeral digits n h.toIsNumeral)
    exact (ofDigitChars_injective _ _ 0 0 hlength h.isDigit hwritten.isDigit
      (h.value.trans hwritten.value.symm)).2
  · rintro rfl
    exact ⟨hwritten, fun other hother => length_toDigits_le_of_isNumeral other n hother⟩

/-- The canonical pieces are what is written for the characters, the tilde apart. -/
theorem isCanonicalPiece_iff (piece : List Char) :
    IsCanonicalPiece piece ↔ ∃ c, c ≠ '~' ∧ encodeChar c = piece := by
  constructor
  · intro h
    cases h with
    | safe c hc =>
        refine ⟨c, ?_, encodeChar_of_safe c hc⟩
        rintro rfl
        exact absurd hc (by decide)
    | escape c digits hc htilde hdigits =>
        refine ⟨c, htilde, ?_⟩
        rw [encodeChar_of_escaped c hc, (isShortest_iff digits c.toNat).1 hdigits]
  · rintro ⟨c, htilde, rfl⟩
    by_cases hc : c.isAlphanum = true
    · rw [encodeChar_of_safe c hc]
      exact .safe c hc
    · rw [encodeChar_of_escaped c hc]
      exact .escape c _ hc htilde ((isShortest_iff _ _).2 rfl)

/-- The canonical texts are the encodings of texts without tildes. -/
theorem canonical_iff (t : List Char) : Canonical t ↔ ∃ x, '~' ∉ x ∧ encodeChars x = t := by
  constructor
  · rintro ⟨pieces, hpieces, rfl⟩
    induction pieces with
    | nil => exact ⟨[], List.not_mem_nil, rfl⟩
    | cons piece rest ih =>
        rcases (isCanonicalPiece_iff piece).1 (hpieces piece List.mem_cons_self) with
          ⟨c, htilde, rfl⟩
        rcases ih (fun p hp => hpieces p (List.mem_cons_of_mem _ hp)) with ⟨x, hx, hrest⟩
        refine ⟨c :: x, ?_, ?_⟩
        · rw [List.mem_cons, not_or]
          exact ⟨Ne.symm htilde, hx⟩
        · rw [encodeChars_cons, hrest, List.flatten_cons]
  · rintro ⟨x, hx, rfl⟩
    refine ⟨x.map encodeChar, ?_, List.flatMap_def.symm⟩
    intro piece hpiece
    rcases List.mem_map.1 hpiece with ⟨c, hc, rfl⟩
    refine (isCanonicalPiece_iff _).2 ⟨c, ?_, rfl⟩
    rintro rfl
    exact hx hc

/-- Reading a text and writing it again leaves it as it is if and only if it is
    canonical. It makes every text canonical, so doing it twice is doing it once. -/
theorem encode_decode_eq_iff (t : String) :
    (encode (decode t) = t ↔ Canonical t.toList) ∧ Canonical (encode (decode t)).toList ∧
      encode (decode (encode (decode t))) = encode (decode t) := by
  have htilde := tilde_not_mem_decodeChars t.toList
  have hcanonical : Canonical (encode (decode t)).toList := by
    rw [toList_encode, toList_decode]
    exact (canonical_iff _).2 ⟨_, htilde, rfl⟩
  refine ⟨⟨?_, ?_⟩, hcanonical, ?_⟩
  · intro h
    rw [h] at hcanonical
    exact hcanonical
  · intro h
    rcases (canonical_iff _).1 h with ⟨x, hx, hencode⟩
    refine String.toList_injective ?_
    rw [toList_encode, toList_decode, ← hencode, decodeChars_encodeChars x hx]
  · -- What was read has no tilde, so it comes back from its encoding.
    refine congrArg encode ((decode_encode_append (decode t) "").2 ?_)
    rw [toList_decode]
    exact htilde

example : encode (decode "a__0032__b__97____") = "a__32__ba__95____95__" := by decide +kernel

end Escape

end AtomicCss
