import ShortMessage.Message
import ShortMessage.Text.Numeral

/-!
# Message identities as text

An identity is thirty-two hexadecimal digits.  It is written in small letters, with hyphens between
groups of digits; it may also be read without hyphens, in braces, or with the lead of its name
space.

* `MessageId.toText`: the written form;
* `MessageId.ofText?`: the reader of all four forms;
* `MessageId.ofRandom`: a fresh identity.
-/

namespace ShortMessage.MessageId

open Text

/-- How many digits the groups have. -/
def groups : List Nat := [8, 4, 4, 4, 12]

/-- Digits with a hyphen between groups. -/
def hyphenated : List Nat → List Char → List Char
  | [], _ => []
  | [size], digits => digits.take size
  | size :: sizes, digits => digits.take size ++ '-' :: hyphenated sizes (digits.drop size)

/-- The digits of a hyphenated text, if its groups have the given sizes. -/
def unhyphenated? : List Nat → List Char → Option (List Char)
  | [], text => if text.isEmpty then some [] else none
  | [size], text => if text.length = size then some text else none
  | size :: sizes, text =>
    match text.drop size with
    | '-' :: rest => (unhyphenated? sizes rest).map (text.take size ++ ·)
    | _ => none

/-- The lead of the name space that identities belong to. -/
def nameSpace : List Char := "urn:uuid:".toList

/-- The digits of an identity, out of any of its forms. -/
def digits? (text : List Char) : Option (List Char) :=
  if text.length = 32 then some text
  else if text.length = 36 then unhyphenated? groups text
  else if text.length = 38 ∧ text.head? = some '{' ∧ text.getLast? = some '}' then
    unhyphenated? groups ((text.drop 1).take 36)
  else if text.length = 45 ∧ text.take 9 = nameSpace then unhyphenated? groups (text.drop 9)
  else none

/-- **The written form** of an identity. -/
def toText (id : MessageId) : String :=
  .ofList (hyphenated groups (fixed 16 32 id.number.toNat))

/-- **Reads an identity** in any of its forms. -/
def ofText? (text : String) : Option MessageId := do
  let value ← number? 16 (← digits? text.toList)
  pure ⟨BitVec.ofNat 128 value⟩

/-- The identity of 128 random bits, of which those that name its kind are set. -/
def ofRandom (bits : BitVec 128) : MessageId :=
  let kind : BitVec 128 := 0x4000#128 <<< 64 ||| 0x8000000000000000#128
  let others : BitVec 128 := ~~~(0xF000#128 <<< 64 ||| 0xC000000000000000#128)
  ⟨bits &&& others ||| kind⟩

end ShortMessage.MessageId
