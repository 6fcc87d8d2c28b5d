import ShortMessage.Binary64

/-!
# The shortest decimal of a binary number

The fewest digits that read back to the same number; of several, those nearest to it.

* `Binary64.shortest`: the digits and the power of ten that they count;
* `Binary64.toText`: the number in positional notation.
-/

namespace ShortMessage.Binary64

/-- The fractions that round to a number of `units`, in quarters of a unit: both ends, and whether
they belong. -/
def interval (units : Nat) : Nat × Nat × Bool :=
  let step := spacing units
  let below := if step * Nat.pow 2 52 = units ∧ 1 < step then step else 2 * step
  (4 * units - below, 4 * units + 2 * step, (units / step) % 2 = 0)

/-- How many digits stand before the point; less than one if the fraction begins with zeros. -/
def magnitude (units : Nat) : Int :=
  (Nat.toDigits 10 (units * Nat.pow 10 400 / one)).length - 400

/-- Does `digits` times ten to the `power` round to `units`? -/
def roundsTo (units : Nat) (power : Int) (digits : Nat) : Bool :=
  let (low, high, closed) := interval units
  let scaled := 4 * digits * one * Nat.pow 10 power.toNat
  let unit := Nat.pow 10 (-power).toNat
  if closed then low * unit ≤ scaled ∧ scaled ≤ high * unit
  else low * unit < scaled ∧ scaled < high * unit

/-- The multiple of ten to the `power` that rounds to `units` and is nearest to it, if there is one:
only the two neighbours on that grid can be. -/
def onGrid? (units : Nat) (power : Int) : Option Nat :=
  let num := units * Nat.pow 10 (-power).toNat
  let den := one * Nat.pow 10 power.toNat
  let below := num / den
  match roundsTo units power below, roundsTo units power (below + 1) with
  | true, true => some (if 2 * (num % den) ≤ den then below else below + 1)
  | true, false => some below
  | false, true => some (below + 1)
  | false, false => none

/-- The first grid that has a hit, from one digit to seventeen. -/
def shortest (units : Nat) : Nat × Int :=
  let hit? (count : Nat) : Option (Nat × Int) :=
    let power := magnitude units - count
    (onGrid? units power).map (·, power)
  ((List.range' 1 17).findSome? hit?).getD (0, 0)

/-- A size in positional notation. -/
def sizeText (units : Nat) : List Char :=
  if units = 0 then ['0']
  else
    let (digits, power) := shortest units
    let text := Nat.toDigits 10 digits
    if 0 ≤ power then text ++ List.replicate power.toNat '0'
    else
      let places := power.natAbs
      let padded := List.replicate (places + 1 - text.length) '0' ++ text
      let whole := padded.length - places
      let fraction := (padded.drop whole).reverse.dropWhile (· = '0')
      padded.take whole ++ (if fraction.isEmpty then [] else '.' :: fraction.reverse)

/-- A number in decimal, without an exponent; what is no finite number has a name. -/
def toText : Binary64 → String
  | .nan => "NaN"
  | .infinite negative => if negative then "-inf" else "inf"
  | .finite negative units => .ofList (if negative then '-' :: sizeText units else sizeText units)

end ShortMessage.Binary64
