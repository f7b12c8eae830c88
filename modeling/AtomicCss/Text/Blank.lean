/-!
# Blank Characters

Which characters are blank, and the two cuts that depend on it.

A class attribute is a list of names kept apart by blanks, and the blanks are
those of the Unicode property `White_Space`: not only the ASCII ones, but also
the no-break space and the wide and narrow spaces that text editors insert.
The property has been closed for years, so it is a table here, ten ranges that
hold twenty-five characters.

## Main definitions

* `blankRanges`: The ranges of the property.
* `isBlank`: Membership in one of them.
* `words`: The pieces of a text between blanks.
* `trim`: A text without the blanks at its two ends.
-/

namespace AtomicCss

namespace Text

/-- The code points with the property `White_Space`, as closed ranges in
    ascending order. -/
def blankRanges : List (Nat × Nat) :=
  [(0x09, 0x0D), (0x20, 0x20), (0x85, 0x85), (0xA0, 0xA0), (0x1680, 0x1680),
   (0x2000, 0x200A), (0x2028, 0x2029), (0x202F, 0x202F), (0x205F, 0x205F), (0x3000, 0x3000)]

/-- A character that keeps two words apart. -/
def isBlank (c : Char) : Bool :=
  blankRanges.any fun range => range.1 ≤ c.toNat && c.toNat ≤ range.2

/-- The maximal runs of characters that are not blank, in order. Two blanks in a
    row would leave an empty piece between them, and it is no word. -/
def wordsOf (s : List Char) : List (List Char) :=
  (s.splitOnP isBlank).filter fun piece => !piece.isEmpty

/-- The words of a text, in order. -/
def words (s : String) : List String :=
  (wordsOf s.toList).map String.ofList

/-- The text without the blanks at its two ends. -/
def trim (s : String) : String :=
  String.ofList ((s.toList.dropWhile isBlank).reverse.dropWhile isBlank).reverse

example : isBlank ' ' ∧ isBlank '\u00a0' ∧ isBlank '\u3000' ∧ ¬ isBlank '\u200b' := by decide

end Text

end AtomicCss
