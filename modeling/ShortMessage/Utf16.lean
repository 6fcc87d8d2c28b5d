import ShortMessage.Octets

/-!
# UTF-16 in octets

Code units of UTF-16, the high octet first: the wide encoding of message text.

* `unitCount`: one unit, or two for a character beyond the basic plane;
* `encode`, `decode?`: `decode?` is strict, it refuses odd lengths and lone surrogates.
-/

namespace ShortMessage.Utf16

/-- How many code units a character takes. -/
def unitCount (c : Char) : Nat :=
  if c.toNat < 0x10000 then 1 else 2

/-- The code units of a character: itself, or its surrogate pair. -/
def units (c : Char) : List Nat :=
  let n := c.toNat
  if n < 0x10000 then [n]
  else [0xD800 + (n - 0x10000) / 0x400, 0xDC00 + (n - 0x10000) % 0x400]

/-- A code unit as two octets. -/
def unitOctets (u : Nat) : Octets :=
  [(u / 256).toUInt8, (u % 256).toUInt8]

/-- **Writes a text** in octets. -/
def encode (text : List Char) : Octets :=
  text.flatMap fun c => (units c).flatMap unitOctets

/-- A character from a scalar value. -/
def scalar? (n : Nat) : Option Char :=
  if h : n.isValidChar then some (Char.ofNatAux n h) else none

/-- The code units of an even number of octets. -/
def unitsOf? : Octets → Option (List Nat)
  | [] => some []
  | [_] => none
  | high :: low :: rest => (unitsOf? rest).map ((256 * high.toNat + low.toNat) :: ·)

/-- The text of code units; a high surrogate has to stand before a low one. -/
def ofUnits? : List Nat → Option (List Char)
  | [] => some []
  | u :: rest =>
    if 0xD800 ≤ u ∧ u < 0xDC00 then
      match rest with
      | [] => none
      | v :: rest =>
        if 0xDC00 ≤ v ∧ v < 0xE000 then do
          let c ← scalar? (0x10000 + (u - 0xD800) * 0x400 + (v - 0xDC00))
          let cs ← ofUnits? rest
          pure (c :: cs)
        else none
    else do
      let c ← scalar? u
      let cs ← ofUnits? rest
      pure (c :: cs)

/-- **Reads a text** from octets; it is strict. -/
def decode? (octets : Octets) : Option (List Char) :=
  (unitsOf? octets).bind ofUnits?

end ShortMessage.Utf16
