/-!
# JSON Values

What a JSON document holds.

The tree keeps a little more than the meaning of the document. A string is kept
as it was written, character by character, with each numeric escape as the
UTF-16 unit it names: a document may write half of a surrogate pair, which is no
text, and only a reader who wants the text should care. A number is kept as its
digits, so that one of any size or precision can stand where nobody looks at it.
An object keeps all its members in order, a name given twice included.

## Main definitions

* `Item`: One element of a string.
* `Value`: A value.
* `text?`: The text that a string stands for.
-/

namespace AtomicCss

namespace Json

/-- One element of a string: a character, or a UTF-16 unit written as a number. -/
inductive Item
  | char (c : Char)
  | unit (u : Nat)
  deriving DecidableEq, Repr

/-- A JSON value. -/
inductive Value
  | null
  | bool (b : Bool)
  | number (literal : List Char)
  | string (items : List Item)
  | array (elements : List Value)
  | object (members : List (List Item × Value))
  deriving Repr

/-- A unit that opens a surrogate pair. -/
def isHigh (u : Nat) : Bool := 0xD800 ≤ u && u < 0xDC00

/-- A unit that closes a surrogate pair. -/
def isLow (u : Nat) : Bool := 0xDC00 ≤ u && u < 0xE000

/-- The characters that a string stands for; `none` if one half of a surrogate
    pair stands alone. -/
def chars? : List Item → Option (List Char)
  | [] => some []
  | .char c :: rest => (chars? rest).map (c :: ·)
  | .unit u :: .unit v :: rest =>
    if isHigh u then
      if isLow v then
        (chars? rest).map (Char.ofNat (0x10000 + (u - 0xD800) * 0x400 + (v - 0xDC00)) :: ·)
      else none
    else if isLow u then none
    else (chars? (.unit v :: rest)).map (Char.ofNat u :: ·)
  | .unit u :: rest =>
    if isHigh u || isLow u then none else (chars? rest).map (Char.ofNat u :: ·)

/-- The text that a string stands for, if it is one. -/
def text? (items : List Item) : Option String :=
  (chars? items).map String.ofList

example : text? [.unit 0xD83D, .unit 0xDE00] = some "😀" := by decide +kernel
example : text? [.unit 0xDE00] = none := by decide +kernel

end Json

end AtomicCss
