import AtomicCss.Escape

/-!
# Escapes in Stored Text

The reader of escapes, on the bytes that a text is stored in.

A text is stored as its UTF-8 bytes, and places in it are offsets. Looking for a
fence is then looking for two bytes, the digits of an escape are counted as bytes,
and going on behind something means to cut the text at an offset. A reader of lists
of characters has no idea of two things that can go wrong here. The offset may lie
inside a character, where a text must not be cut; nothing would be left then, and
the end of the text would be lost. And the number in an escape has to fit into a
word, however many digits there are.

So this reader is written with both: a cut that must not be made leaves nothing,
and a number that grows too large is none. It also says where it made its cuts, so
that one can ask whether each of them was allowed.

## Main definitions

* `ofString`, `ofChars`: The bytes of a text.
* `Cut`, `Cut.isAllowed`, `Cut.behind`: A place where a text is cut, and what is left.
* `fenceAt?`: The offset of the first fence.
* `word?`: The number that digits denote, digit by digit.
* `escape?`: The escape at the front of a text.
* `unescape`: Reading the escapes.
* `decode`: Reading the escapes and the tildes.
-/

namespace AtomicCss

namespace Escape

namespace Bytes

/-- The bytes that some characters are stored in. -/
def ofChars (s : List Char) : List UInt8 :=
  s.flatMap String.utf8EncodeChar

/-- The bytes that a text is stored in. -/
def ofString (s : String) : List UInt8 :=
  s.toUTF8.data.toList

/-- The byte of an underscore. -/
def underscore : UInt8 := 0x5f

/-- The bytes of the marker that opens and closes an escape. -/
def fence : List UInt8 := [underscore, underscore]

/-- The byte is that of a decimal digit. -/
def isDigit (b : UInt8) : Bool :=
  0x30 ≤ b && b ≤ 0x39

/-- A place where a text is cut in two. -/
structure Cut where
  text : List UInt8
  offset : Nat
  deriving DecidableEq, Repr

namespace Cut

/-- No character lies across the cut: one begins there, or the text ends there. -/
def isAllowed (cut : Cut) : Bool :=
  match cut.text[cut.offset]? with
  | none => cut.offset == cut.text.length
  | some b => decide b.IsUTF8FirstByte

/-- The text behind the cut, nothing if it must not be made. -/
def behind (cut : Cut) : List UInt8 :=
  if cut.isAllowed then cut.text.drop cut.offset else []

theorem length_behind_le (cut : Cut) : cut.behind.length ≤ cut.text.length - cut.offset := by
  unfold behind
  split
  · exact Nat.le_of_eq List.length_drop
  · exact Nat.zero_le _

end Cut

/-- The offset of the first fence. -/
def fenceAt? : List UInt8 → Option Nat
  | [] => none
  | b :: rest => if fence <+: b :: rest then some 0 else (fenceAt? rest).map (· + 1)

theorem lt_length_of_fenceAt? {text : List UInt8} {start : Nat} (h : fenceAt? text = some start) :
    start < text.length := by
  induction text generalizing start with
  | nil => cases h
  | cons b rest ih =>
      rw [fenceAt?] at h
      split at h
      · cases h
        exact Nat.zero_lt_succ _
      · obtain ⟨before, hbefore, rfl⟩ := Option.map_eq_some_iff.1 h
        exact Nat.succ_lt_succ (ih hbefore)

/-- The number with one more digit behind it, if that fits into a word of 32 bits. -/
def pushDigit? (n : Nat) (d : UInt8) : Option Nat :=
  let next := 10 * n + (d.toNat - 0x30)
  if next < UInt32.size then some next else none

/-- The number that digits denote, if it fits into a word. -/
def word? (digits : List UInt8) : Option Nat :=
  digits.foldlM pushDigit? 0

/-- The escape at the front of a text, as the character it names and the number of
    bytes it takes, and the cuts that were made to find out. -/
def escape? (text : List UInt8) : Option (Char × Nat) × List Cut :=
  if fence <+: text then
    let body := text.drop fence.length
    let count := (body.takeWhile isDigit).length
    if count = 0 then (none, [⟨text, fence.length⟩])
    else
      let named :=
        if fence <+: body.drop count then (word? (body.take count)).bind charOfCode? else none
      (named.map fun c => (c, 2 * fence.length + count),
        [⟨text, fence.length⟩, ⟨body, count⟩])
  else (none, [])

/-- What is written for the front of a text that opens with a fence, and the cut
    where the reader goes on: behind the escape, or else behind one underscore. -/
def advance (text : List UInt8) : List UInt8 × Cut :=
  match (escape? text).1 with
  | some (c, taken) => (String.utf8EncodeChar c, ⟨text, taken⟩)
  | none => ([underscore], ⟨text, 1⟩)

theorem length_behind_advance_lt {text : List UInt8} (h : text ≠ []) :
    (advance text).2.behind.length < text.length := by
  have hpos : 0 < (advance text).2.offset := by
    unfold advance escape?
    split
    · next c taken hfound =>
      -- An escape takes its two fences at least.
      split at hfound
      · dsimp only at hfound
        split at hfound
        · cases hfound
        · obtain ⟨d, _, hd⟩ := Option.map_eq_some_iff.1 hfound
          cases hd
          exact Nat.lt_of_lt_of_le (by decide) (Nat.le_add_right _ _)
      · cases hfound
    · exact Nat.one_pos
  have htext : (advance text).2.text = text := by
    unfold advance
    split <;> rfl
  have hle := (advance text).2.length_behind_le
  have hlength := List.length_pos_iff.2 h
  rw [htext] at hle
  omega

/-- What was read from a text, and the cuts that were made on the way, in order. -/
structure Reading where
  text : List UInt8
  cuts : List Cut
  deriving DecidableEq, Repr

/-- The text with each escape replaced by its character. -/
def unescape (text : List UInt8) : Reading :=
  match _ : fenceAt? text with
  | none => { text, cuts := [] }
  | some start =>
    let tail := text.drop start
    let next := advance tail
    let more := unescape next.2.behind
    { text := text.take start ++ next.1 ++ more.text
      cuts := ⟨text, start⟩ :: (escape? tail).2 ++ next.2 :: more.cuts }
termination_by text.length
decreasing_by
  have hstart := lt_length_of_fenceAt? ‹_›
  have htail : text.drop start ≠ [] := by
    rw [ne_eq, List.drop_eq_nil_iff]
    omega
  have hlt := length_behind_advance_lt htail
  rw [List.length_drop] at hlt
  exact Nat.lt_of_lt_of_le hlt (Nat.sub_le _ _)

/-- The bytes of the text that a token half stands for: its escapes read, and every
    tilde a space. -/
def decode (text : List UInt8) : List UInt8 :=
  (unescape text).text.map fun b => if b = 0x7e then 0x20 else b

-- The text begins with a character of two bytes, and so does the one that is read.
example : decode (ofString "é___233__~") = ofString "é_é " := by decide +kernel

end Bytes

end Escape

end AtomicCss
