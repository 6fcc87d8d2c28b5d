import ShortMessage.Text.Hidden

/-!
# Quoted text

How a character or a text is shown inside a message: between quotes, with the quote, the backslash
and the hidden characters escaped.

* `quoteChar`: a character between single quotes, in which a double quote stands for itself;
* `quoteText`: a text between double quotes, in which a single quote stands for itself.
-/

namespace ShortMessage.Text

/-- A character as it stands between two `mark`s. -/
def escapeChar (mark c : Char) : List Char :=
  if c = '\x00' then ['\\', '0']
  else if c = '\t' then ['\\', 't']
  else if c = '\r' then ['\\', 'r']
  else if c = '\n' then ['\\', 'n']
  else if c = '\\' || c = mark then ['\\', c]
  else if isHidden c then ['\\', 'u', '\x7b'] ++ Nat.toDigits 16 c.toNat ++ ['\x7d']
  else [c]

/-- A character between single quotes. -/
def quoteChar (c : Char) : String :=
  String.ofList ('\'' :: escapeChar '\'' c ++ ['\''])

/-- A text between double quotes. -/
def quoteText (s : String) : String :=
  String.ofList ('"' :: s.toList.flatMap (escapeChar '"') ++ ['"'])

end ShortMessage.Text
