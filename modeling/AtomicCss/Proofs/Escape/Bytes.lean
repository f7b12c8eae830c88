import AtomicCss.Escape.Bytes
import AtomicCss.Proofs.Escape.Grammar
import AtomicCss.Proofs.Escape.RoundTrip

/-!
# Reading the Stored Text

The reader on bytes reads what the reader on characters reads.

All that the reader of bytes looks for is ASCII: underscores and digits. In UTF-8
no byte of any other character is an ASCII byte (`eq_of_mem_utf8EncodeChar`), so
what it finds in the bytes stands in the text, and a text that is the bytes of two
others, one behind the other, is cut between them at a place where a character
begins. So every search and every count on the bytes has its counterpart on the
characters, and every cut falls between two of them.

The word that the number of an escape is computed in can overflow, but only on
numbers that no character has. The reader of characters has no such word, and
both find nothing there.

The two readers are then compared one fence at a time. Both copy what stands
before it, both write the same character for it, and what they go on with is
again a text and its bytes (`advance_ofChars`). The induction is on the length of
the text that is left.

## Theorems

* `eq_of_mem_utf8EncodeChar`: An ASCII byte is that character.
* `isAllowed_ofChars`: A text may be cut between two characters.
* `fenceAt?_ofChars`: Both readers find the same fence.
* `word?_bind_charOfCode?`: The word is wide enough.
* `escape?_of_opens`, `escape?_of_not_opens`: Both find the same escape.
* `advance_ofChars`: And go on at the same place.
* `unescape_ofChars`: What is read, and the cuts that are made.
* `decode_reads`: Decoding is reading from the left.
-/

namespace AtomicCss

namespace Escape

namespace Bytes

theorem ofString_eq_ofChars (s : String) : ofString s = ofChars s.toList := by
  rw [ofString, String.toUTF8_eq_toByteArray, ← String.utf8Encode_toList]
  exact List.toList_data_toByteArray

theorem ofChars_nil : ofChars [] = [] := rfl

theorem ofChars_cons (c : Char) (s : List Char) :
    ofChars (c :: s) = String.utf8EncodeChar c ++ ofChars s := rfl

theorem ofChars_append (s t : List Char) : ofChars (s ++ t) = ofChars s ++ ofChars t :=
  List.flatMap_append

/-- An ASCII character is one byte, its code point. -/
theorem utf8EncodeChar_of_lt (c : Char) (h : c.toNat < 128) :
    String.utf8EncodeChar c = [UInt8.ofNat c.toNat] := by
  unfold String.utf8EncodeChar
  exact if_pos (show c.val.toNat ≤ 127 from Nat.le_of_lt_succ h)

/-- No byte of another character is that of an ASCII character. -/
theorem le_of_mem_utf8EncodeChar (c : Char) (h : 128 ≤ c.toNat) (b : UInt8)
    (hb : b ∈ String.utf8EncodeChar c) : 128 ≤ b.toNat := by
  have hc : ¬ c.val.toNat ≤ 127 := Nat.not_le_of_gt h
  unfold String.utf8EncodeChar at hb
  simp only [if_neg hc] at hb
  split at hb
  · simp only [List.mem_cons, List.not_mem_nil, or_false] at hb
    rcases hb with rfl | rfl <;> rw [UInt8.toNat_ofNat'] <;> omega
  · split at hb
    · simp only [List.mem_cons, List.not_mem_nil, or_false] at hb
      rcases hb with rfl | rfl | rfl <;> rw [UInt8.toNat_ofNat'] <;> omega
    · simp only [List.mem_cons, List.not_mem_nil, or_false] at hb
      rcases hb with rfl | rfl | rfl | rfl <;> rw [UInt8.toNat_ofNat'] <;> omega

/-- A character has a first byte. -/
theorem exists_utf8EncodeChar_eq_cons (c : Char) :
    ∃ b more, String.utf8EncodeChar c = b :: more ∧ b ∈ String.utf8EncodeChar c := by
  cases hbytes : String.utf8EncodeChar c with
  | nil => exact absurd hbytes String.utf8EncodeChar_ne_nil
  | cons b more => exact ⟨b, more, rfl, List.mem_cons_self⟩

/-- Nothing is lost behind a cut that is allowed. -/
theorem behind_of_isAllowed (cut : Cut) (h : cut.isAllowed = true) :
    cut.behind = cut.text.drop cut.offset := by
  rw [Cut.behind, if_pos h]

section Split

variable {s before after : List Char}

theorem take_ofChars (h : s = before ++ after) :
    (ofChars s).take (ofChars before).length = ofChars before := by
  rw [h, ofChars_append]
  exact List.take_left

theorem drop_ofChars (h : s = before ++ after) :
    (ofChars s).drop (ofChars before).length = ofChars after := by
  rw [h, ofChars_append]
  exact List.drop_left

/-- Between two characters a text may be cut. -/
theorem isAllowed_ofChars (h : s = before ++ after) :
    (Cut.mk (ofChars s) (ofChars before).length).isAllowed = true := by
  rw [h, ofChars_append, Cut.isAllowed, List.getElem?_append_right (Nat.le_refl _), Nat.sub_self]
  cases after with
  | nil => simp only [ofChars_nil, List.getElem?_nil, List.append_nil, beq_self_eq_true]
  | cons c rest =>
      have hpos : 0 < (String.utf8EncodeChar c).length :=
        List.length_pos_iff.2 String.utf8EncodeChar_ne_nil
      rw [ofChars_cons, List.getElem?_append_left hpos, List.getElem?_eq_getElem hpos]
      exact decide_eq_true UInt8.isUTF8FirstByte_getElem_zero_utf8EncodeChar

theorem behind_ofChars (h : s = before ++ after) :
    (Cut.mk (ofChars s) (ofChars before).length).behind = ofChars after := by
  rw [behind_of_isAllowed _ (isAllowed_ofChars h)]
  exact drop_ofChars h

end Split

theorem toNat_ofNat_of_lt (c : Char) (h : c.toNat < 128) :
    (UInt8.ofNat c.toNat).toNat = c.toNat := by
  rw [UInt8.toNat_ofNat', Nat.mod_eq_of_lt (Nat.lt_trans h (by decide))]

/-- The byte of an ASCII character stands in no other character. -/
theorem eq_of_mem_utf8EncodeChar (c d : Char) (hd : d.toNat < 128)
    (h : UInt8.ofNat d.toNat ∈ String.utf8EncodeChar c) : c = d := by
  by_cases hc : c.toNat < 128
  · rw [utf8EncodeChar_of_lt c hc, List.mem_singleton] at h
    have hcode := congrArg UInt8.toNat h
    rw [toNat_ofNat_of_lt d hd, toNat_ofNat_of_lt c hc] at hcode
    exact Char.toNat_inj.1 hcode.symm
  · have hle := le_of_mem_utf8EncodeChar c (Nat.le_of_not_lt hc) _ h
    rw [toNat_ofNat_of_lt d hd] at hle
    exact absurd hd (Nat.not_lt_of_ge hle)

/-- The byte of an underscore stands in no other character. -/
theorem eq_underscore_of_mem (c : Char) (h : underscore ∈ String.utf8EncodeChar c) : c = '_' :=
  eq_of_mem_utf8EncodeChar c '_' (by decide) h

/-- A text is stored with an underscore in front if and only if it has one there. -/
theorem ofChars_eq_underscore_cons_iff (s : List Char) (t : List UInt8) :
    ofChars s = underscore :: t ↔ ∃ rest, s = '_' :: rest ∧ ofChars rest = t := by
  constructor
  · intro h
    cases s with
    | nil => exact absurd h (List.cons_ne_nil _ _).symm
    | cons c rest =>
        rcases exists_utf8EncodeChar_eq_cons c with ⟨b, more, hbytes, hb⟩
        have hfirst := h
        rw [ofChars_cons, hbytes, List.cons_append, List.cons.injEq] at hfirst
        rw [hfirst.1] at hb
        have hc := eq_underscore_of_mem c hb
        rw [hc] at h
        exact ⟨rest, by rw [hc], (List.cons.inj h).2⟩
  · rintro ⟨rest, rfl, rfl⟩
    rfl

theorem fence_prefix_iff (t : List UInt8) :
    fence <+: t ↔ ∃ rest, t = underscore :: underscore :: rest := by
  constructor
  · rintro ⟨rest, rfl⟩
    exact ⟨rest, rfl⟩
  · rintro ⟨rest, rfl⟩
    exact ⟨rest, rfl⟩

/-- The bytes of a text open with a fence if and only if the text does. -/
theorem fence_prefix_ofChars_iff (s : List Char) : fence <+: ofChars s ↔ Escape.fence <+: s := by
  rw [fence_prefix_iff]
  constructor
  · rintro ⟨rest, h⟩
    rcases (ofChars_eq_underscore_cons_iff _ _).1 h with ⟨s', rfl, h'⟩
    rcases (ofChars_eq_underscore_cons_iff _ _).1 h' with ⟨s'', rfl, _⟩
    exact ⟨s'', rfl⟩
  · rintro ⟨rest, rfl⟩
    exact ⟨ofChars rest, rfl⟩

/-- Bytes that are no underscore do not end the search. -/
theorem fenceAt?_append_of_not_mem (s t : List UInt8) (h : underscore ∉ s) :
    fenceAt? (s ++ t) = (fenceAt? t).map (· + s.length) := by
  induction s with
  | nil => exact Option.map_id'.symm
  | cons b rest ih =>
      rw [List.mem_cons, not_or] at h
      have hfence : ¬ fence <+: b :: (rest ++ t) := by
        rw [fence_prefix_iff]
        rintro ⟨more, hmore⟩
        exact h.1 (List.cons.inj hmore).1.symm
      rw [List.cons_append, fenceAt?, if_neg hfence, ih h.2, Option.map_map]
      rfl

/-- The search for a fence stops at the same place in a text and in its bytes. -/
theorem fenceAt?_ofChars (s : List Char) :
    fenceAt? (ofChars s)
      = if (seekFence s).2 = [] then none else some (ofChars (seekFence s).1).length := by
  induction s with
  | nil => rfl
  | cons c rest ih =>
      by_cases hfence : Escape.fence <+: c :: rest
      · rw [seekFence_of_fence _ hfence, if_neg (List.cons_ne_nil _ _)]
        have hbytes := (fence_prefix_ofChars_iff _).2 hfence
        rcases (fence_prefix_iff _).1 hbytes with ⟨t, ht⟩
        rw [ht, fenceAt?, if_pos (ht ▸ hbytes)]
        rfl
      · -- The search goes on behind the bytes of the character.
        have hskip : fenceAt? (ofChars (c :: rest))
            = (fenceAt? (ofChars rest)).map (· + (String.utf8EncodeChar c).length) := by
          by_cases hc : c = '_'
          · have hbytes : ¬ fence <+: underscore :: ofChars rest := by
              rw [hc] at hfence
              exact fun h => hfence ((fence_prefix_ofChars_iff ('_' :: rest)).1 h)
            rw [hc]
            exact if_neg hbytes
          · exact fenceAt?_append_of_not_mem _ _ (fun hmem => hc (eq_underscore_of_mem c hmem))
        rw [seekFence, if_neg hfence, hskip, ih]
        dsimp only
        split
        · rfl
        · rw [Option.map_some, ofChars_cons, List.length_append, Nat.add_comm]

theorem isDigit_iff (b : UInt8) : isDigit b = true ↔ 0x30 ≤ b.toNat ∧ b.toNat ≤ 0x39 := by
  rw [isDigit, Bool.and_eq_true, decide_eq_true_iff, decide_eq_true_iff, UInt8.le_iff_toNat_le,
    UInt8.le_iff_toNat_le]
  rfl

theorem isDigit_ofNat (c : Char) (h : c.toNat < 128) :
    isDigit (UInt8.ofNat c.toNat) = c.isDigit := by
  rw [Bool.eq_iff_iff, Char.isDigit_iff_toNat, isDigit_iff, toNat_ofNat_of_lt c h]
  rfl

theorem lt_of_isDigit (d : Char) (h : d.isDigit = true) : d.toNat < 128 :=
  Nat.lt_of_le_of_lt (Char.isDigit_iff_toNat.1 h).2 (by decide)

/-- The digits at the front of a text are those at the front of its bytes. -/
theorem takeWhile_ofChars (s : List Char) :
    (ofChars s).takeWhile isDigit = ofChars (s.takeWhile Char.isDigit) := by
  induction s with
  | nil => rfl
  | cons c rest ih =>
      by_cases hc : c.toNat < 128
      · have hdigit := isDigit_ofNat c hc
        rw [ofChars_cons, utf8EncodeChar_of_lt c hc, List.singleton_append, List.takeWhile_cons,
          List.takeWhile_cons, hdigit, ih]
        split
        · rw [ofChars_cons, utf8EncodeChar_of_lt c hc, List.singleton_append]
        · rfl
      · -- Neither the character nor its first byte is a digit.
        rcases exists_utf8EncodeChar_eq_cons c with ⟨b, more, hbytes, hb⟩
        have hbyte : ¬ isDigit b = true := by
          have hle := le_of_mem_utf8EncodeChar c (Nat.le_of_not_lt hc) b hb
          rw [isDigit_iff]
          omega
        rw [ofChars_cons, hbytes, List.cons_append, List.takeWhile_cons_of_neg hbyte,
          List.takeWhile_cons_of_neg (fun h => hc (lt_of_isDigit c h))]
        rfl

/-- Digits are as many bytes. -/
theorem length_ofChars_of_isDigit (digits : List Char) (h : ∀ d ∈ digits, d.isDigit = true) :
    (ofChars digits).length = digits.length := by
  induction digits with
  | nil => rfl
  | cons d rest ih =>
      rw [ofChars_cons, utf8EncodeChar_of_lt d (lt_of_isDigit d (h d List.mem_cons_self)),
        List.singleton_append, List.length_cons, List.length_cons,
        ih (fun e he => h e (List.mem_cons_of_mem d he))]

/-- Further digits make a number no smaller. -/
theorem le_ofDigitChars (digits : List Char) (n : Nat) : n ≤ Nat.ofDigitChars 10 digits n := by
  induction digits generalizing n with
  | nil => exact Nat.le_refl n
  | cons d rest ih =>
      rw [Nat.ofDigitChars_cons]
      exact Nat.le_trans (by omega) (ih _)

/-- One more digit is taken unless the number becomes too large. -/
theorem pushDigit?_ofNat (n : Nat) (d : Char) (h : d.isDigit = true) :
    pushDigit? n (UInt8.ofNat d.toNat)
      = if 10 * n + (d.toNat - '0'.toNat) < UInt32.size then some (10 * n + (d.toNat - '0'.toNat))
        else none := by
  rw [pushDigit?, toNat_ofNat_of_lt d (lt_of_isDigit d h)]
  rfl

/-- A number is found unless the whole of it is too large for a word, since it only
    grows on the way. -/
theorem foldlM_pushDigit? (digits : List Char) (h : ∀ d ∈ digits, d.isDigit = true) (n : Nat)
    (hn : n < UInt32.size) :
    (ofChars digits).foldlM pushDigit? n
      = if Nat.ofDigitChars 10 digits n < UInt32.size then some (Nat.ofDigitChars 10 digits n)
        else none := by
  induction digits generalizing n with
  | nil => exact (if_pos hn).symm
  | cons d rest ih =>
      have hd := h d List.mem_cons_self
      rw [ofChars_cons, utf8EncodeChar_of_lt d (lt_of_isDigit d hd), List.singleton_append,
        List.foldlM_cons, pushDigit?_ofNat n d hd, Nat.ofDigitChars_cons]
      by_cases hnext : 10 * n + (d.toNat - '0'.toNat) < UInt32.size
      · rw [if_pos hnext]
        exact ih (fun e he => h e (List.mem_cons_of_mem d he)) _ hnext
      · rw [if_neg hnext, if_neg]
        · rfl
        · exact fun hlt => hnext (Nat.lt_of_le_of_lt (le_ofDigitChars rest _) hlt)

/-- The word is wide enough for each number that has a character. -/
theorem word?_bind_charOfCode? (digits : List Char) (h : ∀ d ∈ digits, d.isDigit = true) :
    (word? (ofChars digits)).bind charOfCode? = charOfCode? (Nat.ofDigitChars 10 digits 0) := by
  rw [word?, foldlM_pushDigit? digits h 0 (by decide)]
  split
  · rfl
  · next hlarge =>
    rw [Option.bind_none, eq_comm, Option.eq_none_iff_forall_ne_some]
    intro c hc
    rw [charOfCode?_eq_some_iff] at hc
    exact hlarge (hc ▸ c.val.toNat_lt)

/-- What is found behind a fence, and where the text is cut for that. -/
theorem escape?_fence (body : List Char) :
    escape? (ofChars (Escape.fence ++ body)) =
      if body.takeWhile Char.isDigit = [] then
        (none, [⟨ofChars (Escape.fence ++ body), (ofChars Escape.fence).length⟩])
      else
        ((if Escape.fence <+: body.dropWhile Char.isDigit then
            charOfCode? (Nat.ofDigitChars 10 (body.takeWhile Char.isDigit) 0)
          else none).map fun c => (c, 4 + (body.takeWhile Char.isDigit).length),
        [⟨ofChars (Escape.fence ++ body), (ofChars Escape.fence).length⟩,
          ⟨ofChars body, (ofChars (body.takeWhile Char.isDigit)).length⟩]) := by
  have hdigit : ∀ d ∈ body.takeWhile Char.isDigit, d.isDigit = true :=
    fun d hd => List.mem_takeWhile_imp hd
  have hlength := length_ofChars_of_isDigit _ hdigit
  have hfence : fence <+: ofChars (Escape.fence ++ body) :=
    (fence_prefix_ofChars_iff _).2 (List.prefix_append _ _)
  have hbody : (ofChars (Escape.fence ++ body)).drop fence.length = ofChars body := rfl
  -- The digits are as many bytes, so the body is cut behind them.
  have hsplit := (List.takeWhile_append_dropWhile (p := Char.isDigit) (l := body)).symm
  have htake := take_ofChars hsplit
  have hdrop := drop_ofChars hsplit
  rw [hlength] at htake hdrop
  rw [escape?, if_pos hfence, hbody]
  simp only [takeWhile_ofChars, hlength, List.length_eq_zero_iff, htake, hdrop,
    fence_prefix_ofChars_iff, word?_bind_charOfCode? _ hdigit]
  rfl

/-- An escape that stands at the front of a text is found in its bytes, and ends
    where it does in the text. -/
theorem escape?_of_opens (s after : List Char) (c : Char) (h : Opens s c after) :
    ∃ before, s = before ++ after ∧
      (escape? (ofChars s)).1 = some (c, (ofChars before).length) := by
  rcases h with ⟨digits, hdigits, rfl⟩
  refine ⟨Escape.fence ++ digits ++ Escape.fence, rfl, ?_⟩
  have hrun : (digits ++ (Escape.fence ++ after)).takeWhile Char.isDigit = digits := by
    rw [List.takeWhile_append_of_pos hdigits.isDigit]
    exact List.append_nil _
  have hrest : (digits ++ (Escape.fence ++ after)).dropWhile Char.isDigit
      = Escape.fence ++ after := by
    rw [List.dropWhile_append_of_pos hdigits.isDigit]
    rfl
  have hlength : (ofChars (Escape.fence ++ digits ++ Escape.fence)).length = 4 + digits.length := by
    rw [ofChars_append, ofChars_append, List.length_append, List.length_append,
      length_ofChars_of_isDigit _ hdigits.isDigit,
      show (ofChars Escape.fence).length = 2 from rfl]
    omega
  rw [hlength, List.append_assoc, List.append_assoc, escape?_fence, hrun, hrest,
    if_neg hdigits.ne_nil, if_pos (List.prefix_append _ _), hdigits.value, charOfCode?_toNat,
    Option.map_some]

/-- Nothing is found in the bytes where no escape stands in the text. -/
theorem escape?_of_not_opens (s : List Char) (h : ∀ c after, ¬ Opens s c after) :
    (escape? (ofChars s)).1 = none := by
  by_cases hfence : Escape.fence <+: s
  · rcases hfence with ⟨body, rfl⟩
    rw [escape?_fence]
    split
    · rfl
    · next hne =>
      dsimp only
      split
      · next hclose =>
        rcases hclose with ⟨after, hafter⟩
        rw [Option.map_eq_none_iff, Option.eq_none_iff_forall_ne_some]
        intro c hc
        refine h c after ⟨body.takeWhile Char.isDigit, ⟨hne, ?_, ?_⟩, ?_⟩
        · exact fun d hd => List.mem_takeWhile_imp hd
        · exact ((charOfCode?_eq_some_iff _ _).1 hc).symm
        · rw [List.append_assoc, List.append_assoc, hafter, List.takeWhile_append_dropWhile]
      · rfl
  · rw [escape?, if_neg (fun hbytes => hfence ((fence_prefix_ofChars_iff s).1 hbytes))]

/-- Each cut that is made to find an escape is allowed. -/
theorem isAllowed_of_mem_escape? (s : List Char) (cut : Cut) (h : cut ∈ (escape? (ofChars s)).2) :
    cut.isAllowed = true := by
  by_cases hfence : Escape.fence <+: s
  · rcases hfence with ⟨body, rfl⟩
    rw [escape?_fence] at h
    split at h
    · rw [List.mem_singleton] at h
      rw [h]
      exact isAllowed_ofChars rfl
    · rw [List.mem_cons, List.mem_singleton] at h
      rcases h with rfl | rfl
      · exact isAllowed_ofChars rfl
      · exact isAllowed_ofChars List.takeWhile_append_dropWhile.symm
  · rw [escape?, if_neg (fun hbytes => hfence ((fence_prefix_ofChars_iff s).1 hbytes))] at h
    exact absurd h List.not_mem_nil

/-- The search stops in front of a fence, or at the end. -/
theorem fence_prefix_seekFence (s : List Char) (h : (seekFence s).2 ≠ []) :
    Escape.fence <+: (seekFence s).2 := by
  induction s with
  | nil => exact absurd rfl h
  | cons c rest ih =>
      by_cases hfence : Escape.fence <+: c :: rest
      · rw [seekFence, if_pos hfence]
        exact hfence
      · rw [seekFence, if_neg hfence] at h ⊢
        exact ih h

/-- At a fence one character is written, and the reader goes on behind as many bytes
    as the reader of the text takes characters. -/
theorem advance_ofChars (s : List Char) (h : Escape.fence <+: s) :
    ∃ before after c, s = before ++ after ∧ before ≠ [] ∧
      Escape.unescape s = c :: Escape.unescape after ∧
      advance (ofChars s) = (String.utf8EncodeChar c, ⟨ofChars s, (ofChars before).length⟩) := by
  by_cases hopens : ∃ c after, Opens s c after
  · rcases hopens with ⟨c, after, hopens⟩
    rcases escape?_of_opens s after c hopens with ⟨before, hs, hfound⟩
    have hread := (readEscape?_eq_some_iff s after c).2 hopens
    refine ⟨before, after, c, hs, ?_, unescape_of_readEscape? s after c hread, ?_⟩
    · rintro rfl
      have hshorter := length_lt_of_readEscape? hread
      rw [hs] at hshorter
      exact Nat.lt_irrefl _ hshorter
    · rw [advance, hfound]
  · -- A fence that opens no escape is written as the underscore it begins with.
    rw [not_exists] at hopens
    have hnone : ∀ c after, ¬ Opens s c after := fun c => not_exists.1 (hopens c)
    rcases h with ⟨body, rfl⟩
    refine ⟨['_'], '_' :: body, '_', rfl, List.cons_ne_nil _ _, ?_, ?_⟩
    · exact unescape_cons_of_none _ _ ((readEscape?_eq_none_iff _).2 hnone)
    · rw [advance, escape?_of_not_opens _ hnone]
      rfl

theorem unescape_of_none (text : List UInt8) (h : fenceAt? text = none) :
    unescape text = { text, cuts := [] } := by
  rw [unescape]
  split
  · rfl
  · next hsome =>
    rw [h] at hsome
    exact absurd hsome (Option.some_ne_none _).symm

theorem unescape_of_some (text : List UInt8) (start : Nat) (h : fenceAt? text = some start) :
    unescape text =
      { text := text.take start ++ (advance (text.drop start)).1
          ++ (unescape (advance (text.drop start)).2.behind).text
        cuts := ⟨text, start⟩ :: (escape? (text.drop start)).2 ++ (advance (text.drop start)).2
          :: (unescape (advance (text.drop start)).2.behind).cuts } := by
  rw [unescape]
  split
  · next hnone =>
    rw [h] at hnone
    exact absurd hnone (Option.some_ne_none _)
  · next found hfound =>
    rw [h, Option.some.injEq] at hfound
    rw [hfound]

/-- Reading the bytes of a text is reading the text, and each cut is allowed. The
    induction is on the length of what is left. -/
theorem unescape_ofChars (s : List Char) :
    (unescape (ofChars s)).text = ofChars (Escape.unescape s) ∧
      ∀ cut ∈ (unescape (ofChars s)).cuts, cut.isAllowed = true := by
  have hsplit := (seekFence_append s).symm
  have hstart := fenceAt?_ofChars s
  by_cases htail : (seekFence s).2 = []
  · rw [if_pos htail] at hstart
    rw [htail, List.append_nil] at hsplit
    rw [unescape_of_none _ hstart, unescape_of_seek_nil s htail, ← hsplit]
    exact ⟨rfl, fun cut hcut => absurd hcut List.not_mem_nil⟩
  · rw [if_neg htail] at hstart
    rcases advance_ofChars (seekFence s).2 (fence_prefix_seekFence s htail) with
      ⟨before, after, c, htext, hne, hread, hadvance⟩
    -- What is left is shorter by the characters that the reader went over.
    have hshorter : after.length < s.length := by
      have hlength := congrArg List.length hsplit
      have hpos := List.length_pos_iff.2 hne
      rw [htext, List.length_append, List.length_append] at hlength
      omega
    have ih := unescape_ofChars after
    rw [unescape_of_some _ _ hstart, drop_ofChars hsplit, take_ofChars hsplit, hadvance,
      behind_ofChars htext]
    constructor
    · rw [unescape_eq_seek s, hread, ih.1, ofChars_append, ofChars_cons, List.append_assoc]
    · intro cut hcut
      rcases List.mem_append.1 hcut with hfound | hgone
      · rcases List.mem_cons.1 hfound with rfl | hfound
        · exact isAllowed_ofChars hsplit
        · exact isAllowed_of_mem_escape? _ cut hfound
      · rcases List.mem_cons.1 hgone with rfl | hgone
        · exact isAllowed_ofChars htext
        · exact ih.2 cut hgone
termination_by s.length

/-- Spaces take the place of the tildes in the bytes of a text as they do in the text. -/
theorem map_ofChars (s : List Char) :
    ((ofChars s).map fun b => if b = 0x7e then 0x20 else b)
      = ofChars (s.map fun c => if c = spaceMark then ' ' else c) := by
  induction s with
  | nil => rfl
  | cons c rest ih =>
      rw [ofChars_cons, List.map_append, ih, List.map_cons, ofChars_cons]
      by_cases hc : c = spaceMark
      · rw [if_pos hc, hc]
        rfl
      · rw [if_neg hc]
        congr 1
        conv => rhs; rw [← List.map_id (String.utf8EncodeChar c)]
        refine List.map_congr_left (fun b hb => if_neg (fun htilde => hc ?_))
        rw [htilde] at hb
        exact eq_of_mem_utf8EncodeChar c '~' (by decide) hb

theorem decode_ofString (s : String) : decode (ofString s) = ofString (Escape.decode s) := by
  rw [ofString_eq_ofChars, ofString_eq_ofChars, toList_decode, decode, (unescape_ofChars _).1,
    map_ofChars]
  rfl

end Bytes

/-- There is one way to read a text from the left, and what is decoded is that, with
    spaces for its tildes. On the bytes of the text the result is the same, and no
    cut is made inside a character, so nothing is lost behind one. -/
theorem decode_reads (s : String) :
    (∃ text, (∀ other, Reads s.toList other ↔ other = text) ∧
      decode s = tildesToSpaces (String.ofList text)) ∧
    Bytes.decode (Bytes.ofString s) = Bytes.ofString (decode s) ∧
    ∀ cut ∈ (Bytes.unescape (Bytes.ofString s)).cuts,
      cut.isAllowed = true ∧ cut.behind = cut.text.drop cut.offset := by
  refine ⟨⟨unescape s.toList, reads_iff s.toList, ?_⟩, Bytes.decode_ofString s, ?_⟩
  · refine String.toList_injective ?_
    rw [toList_decode, tildesToSpaces, String.toList_map, String.toList_ofList]
    rfl
  · intro cut hcut
    rw [Bytes.ofString_eq_ofChars] at hcut
    have hallowed := (Bytes.unescape_ofChars s.toList).2 cut hcut
    exact ⟨hallowed, Bytes.behind_of_isAllowed cut hallowed⟩

end Escape

end AtomicCss
