import ShortMessage.Text.Numeral

/-!
# Binary floating point numbers

The numbers of the 64-bit binary format.  Each finite one is a multiple of the smallest positive
one, which is 2^-1074, so that it is known by a natural number of such units and a sign.

* `Binary64`: a number;
* `Binary64.ofRatio`: the number nearest to a fraction, of two equally near the even one;
* `Binary64.ofText?`: reads a number in decimal;
* `Binary64.toCount`: the nearest count, halves going away from zero.
-/

namespace ShortMessage

/-- **A number** of the 64-bit binary format.  Its two zeros differ, and all that is no number is
one. -/
inductive Binary64
  | nan
  | infinite (negative : Bool)
  /-- A sign and a size in units of 2^-1074. -/
  | finite (negative : Bool) (units : Nat)
deriving DecidableEq

namespace Binary64

/-- The units in one. -/
def one : Nat := Nat.pow 2 1074

/-- The units that are too many for a finite number. -/
def tooMany : Nat := Nat.pow 2 2098

/-- The distance between neighbours near a size: the significand has 53 bits. -/
def spacing (units : Nat) : Nat :=
  Nat.pow 2 (units.log2 - 52)

/-- The nearest integer to a fraction; of two equally near the even one. -/
def roundToEven (num den : Nat) : Nat :=
  let q := num / den
  let rest := 2 * (num % den)
  if rest < den ∨ rest = den ∧ q % 2 = 0 then q else q + 1

/-- The number nearest to a fraction of units. -/
def ofRatio (negative : Bool) (num den : Nat) : Binary64 :=
  let step := spacing (num / den)
  let units := step * roundToEven num (den * step)
  if tooMany ≤ units then .infinite negative else .finite negative units

/-- The number nearest to `digits` times ten to the `exponent`.  Numbers far out of range are not
worked out. -/
def ofDecimal (negative : Bool) (digits : Nat) (exponent : Int) : Binary64 :=
  let size := (Nat.toDigits 10 digits).length + exponent
  if digits = 0 ∨ size < -400 then .finite negative 0
  else if 400 < size then .infinite negative
  else if exponent < 0 then ofRatio negative (digits * one) (Nat.pow 10 exponent.natAbs)
  else ofRatio negative (digits * one * Nat.pow 10 exponent.natAbs) 1

/-- Either of the two zeros. -/
def isZero : Binary64 → Bool
  | .finite _ units => units = 0
  | _ => false

/-- The nearest count up to `high`, halves going up; what is not a number counts as zero. -/
def toCount (high : Nat) : Binary64 → Nat
  | .nan | .infinite true | .finite true _ => 0
  | .infinite false => high
  | .finite false units => min high ((2 * units + one) / (2 * one))

/-! ### Reading -/

/-- The letters that begin an exponent. -/
def isExponentMark (c : Char) : Bool :=
  c = 'e' || c = 'E'

/-- The exponent after its mark; if there is no mark, it is zero. -/
def exponent? : List Char → Option Int
  | [] => some 0
  | mark :: rest =>
    let (negative, digits) := Text.splitSign rest
    if isExponentMark mark ∧ digits ≠ [] then
      (Text.number? 10 digits).map fun n => if negative then -(n : Int) else n
    else none

/-- Digits, perhaps a point and more digits, perhaps an exponent. -/
def decimal? (negative : Bool) (text : List Char) : Option Binary64 := do
  let whole := text.takeWhile Char.isDigit
  let rest := text.dropWhile Char.isDigit
  let (fraction, rest) :=
    match rest with
    | '.' :: rest => (rest.takeWhile Char.isDigit, rest.dropWhile Char.isDigit)
    | rest => ([], rest)
  let exponent ← exponent? rest
  if whole.isEmpty ∧ fraction.isEmpty then none
  else
    let digits ← Text.number? 10 (whole ++ fraction)
    pure (ofDecimal negative digits (exponent - fraction.length))

/-- Reads a number: a decimal, or a word for infinity or for what is not a number. -/
def ofText? (text : String) : Option Binary64 :=
  let (negative, rest) := Text.splitSign text.toList
  let word := String.ofList (rest.map Char.toLower)
  if word = "nan" then some .nan
  else if word = "inf" ∨ word = "infinity" then some (.infinite negative)
  else decimal? negative rest

end Binary64

end ShortMessage
