import ShortMessage.Text.Blank

/-!
# Octets and their hexadecimal text

Octet strings, and the text people type and read for them.

* `toHex`: two upper-case digits for each octet;
* `ofHex`: blanks may stand anywhere, the case of a digit does not matter, and a pair may spell its
  octet with a plus sign and one digit;
* `HexFault`: why a text is no octet string.
-/

namespace ShortMessage

/-- A string of octets. -/
abbrev Octets := List UInt8

namespace Octets

/-- The value of a hexadecimal digit of either case. -/
def digitValue? (c : Char) : Option UInt8 :=
  if '0' ≤ c ∧ c ≤ '9' then some (c.toNat - '0'.toNat).toUInt8
  else if 'a' ≤ c ∧ c ≤ 'f' then some (c.toNat - 'a'.toNat + 10).toUInt8
  else if 'A' ≤ c ∧ c ≤ 'F' then some (c.toNat - 'A'.toNat + 10).toUInt8
  else none

/-- The upper-case digit of a value below sixteen. -/
def upperDigit (n : UInt8) : Char :=
  if n < 10 then Char.ofNat ('0'.toNat + n.toNat) else Char.ofNat ('A'.toNat + n.toNat - 10)

/-- The two digits of an octet. -/
def hexPair (b : UInt8) : List Char :=
  [upperDigit (b / 16), upperDigit (b % 16)]

/-- **Writes octets** as digits. -/
def toHex (bytes : Octets) : String :=
  String.ofList (bytes.flatMap hexPair)

/-- Why a text is no octet string. -/
inductive HexFault
  | oddLength (text : String)
  | badPair (high low : Char)
deriving DecidableEq

/-- The fault in words; it shows the text as it was typed. -/
def HexFault.message : HexFault → String
  | .oddLength text => "十六进制字符串长度必须为偶数: " ++ text
  | .badPair high low => "无效的十六进制字节: " ++ String.ofList [high, low]

/-- The octet that a pair of characters spells: two digits, or a plus sign and one digit. -/
def pairValue? (high low : Char) : Option UInt8 :=
  if high = '+' then digitValue? low
  else do
    let h ← digitValue? high
    let l ← digitValue? low
    pure (16 * h + l)

/-- Octets from the characters that are left once the blanks are gone. -/
def ofPairs (text : String) : List Char → Except HexFault Octets
  | [] => .ok []
  | [_] => .error (.oddLength text)
  | high :: low :: rest =>
    match pairValue? high low with
    | none => .error (.badPair high low)
    | some b => (ofPairs text rest).map (b :: ·)

/-- An odd number of characters is found first, then the first pair that is no octet. -/
def ofHex (text : String) : Except HexFault Octets :=
  let chars := text.toList.filter (!Text.isBlank ·)
  if chars.length % 2 = 1 then .error (.oddLength text) else ofPairs text chars

end Octets

end ShortMessage
