/-!
# Blank characters

The white space of Unicode.  Readers that "skip blanks" skip exactly these.

* `isBlank`: the property;
* `dropBlanks`: what is left of a text after its leading blanks.
-/

namespace ShortMessage.Text

/-- **White space**: tab to carriage return, the space, and the blanks beyond ASCII. -/
def isBlank (c : Char) : Bool :=
  let n := c.toNat
  (9 ≤ n && n ≤ 13) || n == 0x20 || n == 0x85 || n == 0xA0 || n == 0x1680 ||
    (0x2000 ≤ n && n ≤ 0x200A) || n == 0x2028 || n == 0x2029 || n == 0x202F || n == 0x205F ||
    n == 0x3000

/-- A text from its first character that is not blank. -/
def dropBlanks (s : List Char) : List Char :=
  s.dropWhile isBlank

end ShortMessage.Text
