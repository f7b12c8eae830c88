import AtomicCss.Json.Value

/-!
# Reading JSON

The value that a JSON document writes down.

The grammar is the strict one: no comments, no comma after the last element, no
sign or zero in front of a number that does not need it, no raw control
character in a string. Blanks are the four of the standard and may stand between
any two tokens.

A reader takes its value off the front of the text. It returns the rest together
with the fact that the rest is shorter, and that is what the recursion through
arrays and objects ends by; values may be nested to any depth.

Words and numbers are not followed letter by letter. After either the grammar
wants a blank, a bracket, a comma or the end, none of which occurs in them, so
the longest run of their characters has to be one of them as a whole.

## Main definitions

* `Reading`: What was read, and the shorter rest.
* `isNumber`: The texts that are numbers.
* `readItems`: A string, after its opening quote.
* `readValue`, `readElements`, `readMembers`: A value, and the inside of the two
  brackets.
* `parse?`: The value of a whole document.
-/

namespace AtomicCss

namespace Json

/-- What was read off the front of a text, and what is left of the text. -/
structure Reading (α : Type) (text : List Char) where
  value : α
  rest : List Char
  shorter : rest.length < text.length

namespace Reading

/-- A reading of the end of a text is a reading of the text. -/
def widen (r : Reading α s) (h : s.length ≤ t.length) (f : α → β) : Reading β t where
  value := f r.value
  rest := r.rest
  shorter := Nat.lt_of_lt_of_le r.shorter h

end Reading

/-- A character that may stand between two tokens. -/
def isBlank (c : Char) : Bool :=
  c == ' ' || c == '\t' || c == '\n' || c == '\r'

/-- The text after its blanks. -/
def skipBlanks (s : List Char) : List Char :=
  s.dropWhile isBlank

theorem length_skipBlanks_le (s : List Char) : (skipBlanks s).length ≤ s.length :=
  (List.dropWhile_suffix isBlank).length_le

/-- The text after its blanks and one given character. -/
def expect? (c : Char) (s : List Char) : Option (Reading Unit s) :=
  match h : skipBlanks s with
  | [] => none
  | d :: rest =>
    if d = c then
      some ⟨(), rest, by have := length_skipBlanks_le s; simp_all only [List.length_cons]; omega⟩
    else none

/-! ### Words and numbers -/

/-- The text after a run of digits that is not empty. -/
def dropDigits? (s : List Char) : Option (List Char) :=
  if (s.takeWhile Char.isDigit).isEmpty then none else some (s.dropWhile Char.isDigit)

/-- The text after the whole part of a number: a zero, or digits that begin with
    another one. -/
def dropWhole? : List Char → Option (List Char)
  | '0' :: rest => some rest
  | s => dropDigits? s

/-- The text after the fraction of a number, if it has one. -/
def dropFraction? : List Char → Option (List Char)
  | '.' :: rest => dropDigits? rest
  | s => some s

/-- The text after the exponent of a number, if it has one. -/
def dropExponent? : List Char → Option (List Char)
  | e :: rest =>
    if e = 'e' ∨ e = 'E' then
      match rest with
      | '+' :: digits | '-' :: digits => dropDigits? digits
      | digits => dropDigits? digits
    else some (e :: rest)
  | [] => some []

/-- The text is a number: sign, whole part, fraction and exponent, of which only
    the whole part has to be there. -/
def isNumber (literal : List Char) : Bool :=
  let unsigned := match literal with
    | '-' :: rest => rest
    | s => s
  (dropWhole? unsigned >>= dropFraction? >>= dropExponent?) == some []

/-- The value of a word or a number. -/
def scalar? (literal : List Char) : Option Value :=
  if literal = "null".toList then some .null
  else if literal = "true".toList then some (.bool true)
  else if literal = "false".toList then some (.bool false)
  else if isNumber literal then some (.number literal)
  else none

/-- A character that may occur in a word or a number. -/
def isScalarChar (c : Char) : Bool :=
  c.isAlphanum || c == '+' || c == '-' || c == '.'

/-- A word or a number. -/
def readScalar? (s : List Char) : Option (Reading Value s) :=
  match h : skipBlanks s with
  | [] => none
  | c :: rest =>
    if isScalarChar c then
      (scalar? (c :: rest.takeWhile isScalarChar)).map fun v =>
        ⟨v, rest.dropWhile isScalarChar, by
          have hblank := length_skipBlanks_le s
          have hrest := (List.dropWhile_suffix (l := rest) isScalarChar).length_le
          simp_all only [List.length_cons]
          omega⟩
    else none

/-! ### Strings -/

/-- The value of a hexadecimal digit. -/
def hexDigit? (c : Char) : Option Nat :=
  if c.isDigit then some (c.toNat - '0'.toNat)
  else if 'a' ≤ c ∧ c ≤ 'f' then some (c.toNat - 'a'.toNat + 10)
  else if 'A' ≤ c ∧ c ≤ 'F' then some (c.toNat - 'A'.toNat + 10)
  else none

/-- The UTF-16 unit that four hexadecimal digits name. -/
def unit? (a b c d : Char) : Option Nat := do
  return ((← hexDigit? a) * 16 + (← hexDigit? b)) * 256 + (← hexDigit? c) * 16 + (← hexDigit? d)

/-- The character that a backslash and a letter stand for. -/
def escaped? : Char → Option Char
  | '"' => some '"'
  | '\\' => some '\\'
  | '/' => some '/'
  | 'b' => some '\x08'
  | 'f' => some '\x0c'
  | 'n' => some '\n'
  | 'r' => some '\r'
  | 't' => some '\t'
  | _ => none

/-- The elements of a string whose opening quote has been read, up to the closing
    one. -/
def readItems? : (s : List Char) → Option (Reading (List Item) s)
  | '"' :: rest => some ⟨[], rest, Nat.lt_succ_self _⟩
  | '\\' :: 'u' :: a :: b :: c :: d :: rest => do
    let u ← unit? a b c d
    let items ← readItems? rest
    return items.widen (by simp only [List.length_cons]; omega) (.unit u :: ·)
  | '\\' :: e :: rest => do
    let c ← escaped? e
    let items ← readItems? rest
    return items.widen (by simp only [List.length_cons]; omega) (.char c :: ·)
  | c :: rest =>
    if c.toNat < 0x20 then none
    else do
      let items ← readItems? rest
      return items.widen (Nat.le_succ _) (.char c :: ·)
  | [] => none

/-! ### Values -/

mutual

/-- One value. -/
def readValue? (s : List Char) : Option (Reading Value s) :=
  match expect? '"' s with
  | some opened =>
    (readItems? opened.rest).map (·.widen (Nat.le_of_lt opened.shorter) .string)
  | none =>
    match expect? '[' s with
    | some opened =>
      match expect? ']' opened.rest with
      | some closed => some (closed.widen (Nat.le_of_lt opened.shorter) fun _ => .array [])
      | none =>
        have := opened.shorter
        (readElements? opened.rest).map (·.widen (Nat.le_of_lt opened.shorter) .array)
    | none =>
      match expect? '\x7b' s with
      | some opened =>
        match expect? '\x7d' opened.rest with
        | some closed => some (closed.widen (Nat.le_of_lt opened.shorter) fun _ => .object [])
        | none =>
          have := opened.shorter
          (readMembers? opened.rest).map (·.widen (Nat.le_of_lt opened.shorter) .object)
      | none => readScalar? s
-- A list is read by its first value at the same place, so a value ranks below a list.
termination_by (s.length, 0)

/-- The elements of an array that is not empty, up to the closing bracket. -/
def readElements? (s : List Char) : Option (Reading (List Value) s) := do
  let first ← readValue? s
  match expect? ',' first.rest with
  | some comma =>
    have := first.shorter
    have := comma.shorter
    let more ← readElements? comma.rest
    return more.widen (by omega) (first.value :: ·)
  | none =>
    let closed ← expect? ']' first.rest
    return closed.widen (Nat.le_of_lt first.shorter) fun _ => [first.value]
termination_by (s.length, 1)

/-- The members of an object that is not empty, up to the closing brace. -/
def readMembers? (s : List Char) : Option (Reading (List (List Item × Value)) s) := do
  let opened ← expect? '"' s
  let key ← readItems? opened.rest
  let colon ← expect? ':' key.rest
  have := opened.shorter
  have := key.shorter
  have := colon.shorter
  let first ← readValue? colon.rest
  have := first.shorter
  match expect? ',' first.rest with
  | some comma =>
    have := comma.shorter
    let more ← readMembers? comma.rest
    return more.widen (by omega) ((key.value, first.value) :: ·)
  | none =>
    let closed ← expect? '\x7d' first.rest
    return closed.widen (by omega) fun _ => [(key.value, first.value)]
termination_by (s.length, 1)

end

/-- The value of a document, if it is valid: one value, with nothing but blanks
    around it. -/
def parse? (document : String) : Option Value := do
  let r ← readValue? document.toList
  if (skipBlanks r.rest).isEmpty then some r.value else none

end Json

end AtomicCss
