import AtomicCss.Text.Hidden

/-!
# Quoted Text

How a text stands inside a log message.

A class attribute may hold line breaks, and a message that showed them raw would
look like two messages. So a quoted text is written between double quotes, with
a backslash in front of a quote and of a backslash, and with an escape for each
character that does not show. Everything else stands as it is.

## Main definitions

* `quotedChar`: One character of a quoted text.
* `quoted`: A whole text between its quotes.
-/

namespace AtomicCss

namespace Text

/-- One character of a quoted text. The common control characters have a letter, the
    others that do not show have their code point in hexadecimal. -/
def quotedChar (c : Char) : List Char :=
  if c = '"' ∨ c = '\\' then ['\\', c]
  else if c = '\t' then ['\\', 't']
  else if c = '\n' then ['\\', 'n']
  else if c = '\r' then ['\\', 'r']
  else if c = '\x00' then ['\\', '0']
  -- The rest of ASCII is told apart without the table.
  else if 0x20 ≤ c.toNat ∧ c.toNat < 0x7f then [c]
  else if isHidden c then ['\\', 'u', '\x7b'] ++ Nat.toDigits 16 c.toNat ++ ['\x7d']
  else [c]

/-- The text between double quotes, fit for one line of a log. -/
def quoted (s : String) : String :=
  String.ofList ('"' :: s.toList.flatMap quotedChar ++ ['"'])

example : quoted "a\u200bé\x07\n" = "\"a\\u\x7b200b\x7dé\\u\x7b7\x7d\\n\"" := by decide +kernel

end Text

end AtomicCss
