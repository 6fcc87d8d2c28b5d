import ShortMessage.Octets

/-!
# The default alphabet of short messages

The 7-bit default alphabet and its extension table.  A septet is kept in an octet of its own;
packing is not done here.

* `septetLength?`: one septet for a basic character, two for an extension character;
* `encode?`, `decode?`: between texts and septet sequences;
* an extension character is the escape septet and a code of the extension table.
-/

namespace ShortMessage.Alphabet

/-- The septet that announces a code of the extension table. -/
def escape : UInt8 := 0x1B

/-- The basic table, in the order of the septets; its entry at `escape` is no character. -/
def basic : List Char := [
  '@', '£', '$', '¥', 'è', 'é', 'ù', 'ì', 'ò', 'Ç', '\n', 'Ø', 'ø', '\r', 'Å', 'å',
  'Δ', '_', 'Φ', 'Γ', 'Λ', 'Ω', 'Π', 'Ψ', 'Σ', 'Θ', 'Ξ', '\x1b', 'Æ', 'æ', 'ß', 'É',
  ' ', '!', '"', '#', '¤', '%', '&', '\'', '(', ')', '*', '+', ',', '-', '.', '/',
  '0', '1', '2', '3', '4', '5', '6', '7', '8', '9', ':', ';', '<', '=', '>', '?',
  '¡', 'A', 'B', 'C', 'D', 'E', 'F', 'G', 'H', 'I', 'J', 'K', 'L', 'M', 'N', 'O',
  'P', 'Q', 'R', 'S', 'T', 'U', 'V', 'W', 'X', 'Y', 'Z', 'Ä', 'Ö', 'Ñ', 'Ü', '§',
  '¿', 'a', 'b', 'c', 'd', 'e', 'f', 'g', 'h', 'i', 'j', 'k', 'l', 'm', 'n', 'o',
  'p', 'q', 'r', 's', 't', 'u', 'v', 'w', 'x', 'y', 'z', 'ä', 'ö', 'ñ', 'ü', 'à']

/-- The extension table: the characters and the codes that follow the escape septet. -/
def extension : List (Char × UInt8) := [
  ('\x0c', 0x0A), ('^', 0x14), ('\x7b', 0x28), ('\x7d', 0x29), ('\\', 0x2F), ('[', 0x3C),
  ('~', 0x3D), (']', 0x3E), ('|', 0x40), ('€', 0x65)]

/-- The septet of a basic character; `escape` stands for no character. -/
def basicCode? (c : Char) : Option UInt8 :=
  ((basic.idxOf? c).map Nat.toUInt8).filter (· ≠ escape)

/-- The code that follows `escape`, for a character of the extension table. -/
def extensionCode? (c : Char) : Option UInt8 :=
  (extension.find? (·.1 = c)).map (·.2)

/-- The septets of one character. -/
def encodeChar? (c : Char) : Option Octets :=
  match basicCode? c, extensionCode? c with
  | some code, _ => some [code]
  | none, some code => some [escape, code]
  | none, none => none

/-- How many septets a character takes, if it has any. -/
def septetLength? (c : Char) : Option Nat :=
  if (basicCode? c).isSome then some 1
  else if (extensionCode? c).isSome then some 2
  else none

/-- A text is encodable if every character is in one of the tables. -/
def isEncodable (text : List Char) : Bool :=
  text.all fun c => (septetLength? c).isSome

/-- **Encoding** fails as soon as one character is in neither table. -/
def encode? : List Char → Option Octets
  | [] => some []
  | c :: cs => do
    let code ← encodeChar? c
    let codes ← encode? cs
    pure (code ++ codes)

/-- The character of a septet; one beyond the table has none. -/
def basicChar? (septet : UInt8) : Option Char :=
  basic[septet.toNat]?

/-- The character of a code of the extension table. -/
def extensionChar? (code : UInt8) : Option Char :=
  (extension.find? (·.2 = code)).map (·.1)

/-- **Decoding** refuses an octet beyond the septets, an escape with nothing after it, and an escape
before a code that the extension table lacks. -/
def decode? : Octets → Option (List Char)
  | [] => some []
  | septet :: rest =>
    if septet = escape then
      match rest with
      | [] => none
      | code :: rest => do
        let c ← extensionChar? code
        let cs ← decode? rest
        pure (c :: cs)
    else do
      let c ← basicChar? septet
      let cs ← decode? rest
      pure (c :: cs)

end ShortMessage.Alphabet
