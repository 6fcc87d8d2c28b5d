/-!
# Numerals

Digits in bases up to sixteen, read and written.

* `digit?`: the value of a digit, of either case;
* `number?`: the value of a row of digits;
* `fixed`: a number in a given count of digits;
* `leading`: the digits that a text begins with, up to a given count, and `leadingNumber?`,
  `fixedNumber?`: their value;
* `unsigned?`, `signed?`: a whole text as a number in a range.
-/

namespace ShortMessage.Text

/-- The value of a digit of a base; the letters of either case go on from nine. -/
def digit? (base : Nat) (c : Char) : Option Nat :=
  let value :=
    if '0' ≤ c ∧ c ≤ '9' then c.toNat - '0'.toNat
    else if 'a' ≤ c ∧ c ≤ 'z' then c.toNat - 'a'.toNat + 10
    else if 'A' ≤ c ∧ c ≤ 'Z' then c.toNat - 'A'.toNat + 10
    else base
  if value < base then some value else none

/-- The character is a digit of a base. -/
def isDigit (base : Nat) (c : Char) : Bool :=
  (digit? base c).isSome

/-- The value of a row of digits; the first is the most significant. -/
def number? (base : Nat) (digits : List Char) : Option Nat :=
  digits.foldlM (fun value c => (digit? base c).map (value * base + ·)) 0

/-- The last `width` digits of a number, with leading zeros. -/
def fixed (base : Nat) : (width : Nat) → Nat → List Char
  | 0, _ => []
  | width + 1, n => fixed base width (n / base) ++ [Nat.digitChar (n % base)]

/-- The digits that a text begins with, at most `most`, and the rest. -/
def leading (base : Nat) : (most : Nat) → List Char → List Char × List Char
  | most + 1, c :: rest =>
    if isDigit base c then
      let (digits, rest) := leading base most rest
      (c :: digits, rest)
    else ([], c :: rest)
  | _, rest => ([], rest)

/-- Reads a decimal number of at most `most` digits, and of one at least. -/
def leadingNumber? (most : Nat) (text : List Char) : Option (Nat × List Char) :=
  let (digits, rest) := leading 10 most text
  if digits.isEmpty then none else (number? 10 digits).map (·, rest)

/-- Reads a decimal number of exactly `width` digits. -/
def fixedNumber? (width : Nat) (text : List Char) : Option (Nat × List Char) :=
  let (digits, rest) := leading 10 width text
  if digits.length = width then (number? 10 digits).map (·, rest) else none

/-- The minus sign that a text begins with, if any, and what follows a sign of either kind. -/
def splitSign : List Char → Bool × List Char
  | '-' :: rest => (true, rest)
  | '+' :: rest => (false, rest)
  | rest => (false, rest)

/-- Reads a whole text as a number from zero to `high`; it may have a plus sign. -/
def unsigned? (high : Nat) (text : String) : Option Nat := do
  let (negative, digits) := splitSign text.toList
  let n ← if negative ∨ digits.isEmpty then none else number? 10 digits
  if n ≤ high then pure n else none

/-- Reads a whole text as a number from `low` to `high`; it may have a sign. -/
def signed? (low high : Int) (text : String) : Option Int := do
  let (negative, digits) := splitSign text.toList
  let size ← if digits.isEmpty then none else number? 10 digits
  let n : Int := if negative then -size else size
  if low ≤ n ∧ n ≤ high then pure n else none

end ShortMessage.Text
