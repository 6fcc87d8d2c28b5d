import ShortMessage.Alphabet
import ShortMessage.Message
import ShortMessage.Utf16

/-!
# Cutting messages into parts

A text is encoded in one way throughout: in septets if the default alphabet has all its characters,
in wide units otherwise.  It is one part if it fits; otherwise it is cut greedily from the left at
character boundaries.  Data is never cut.

* `SegmentLimits`: the octets that a part and its headers may take;
* `SegmentLimits.capacity`: how many units of an encoding fit into one part;
* `pieces`: the greedy cut;
* `SegmentLimits.segmentText`, `segmentData`, `segment`: the parts of a message.
-/

namespace ShortMessage

/-- What a part has room for, in octets. -/
structure SegmentLimits where
  /-- The user data of one part, headers included. -/
  userData : Nat
  /-- The header of a part that belongs to a longer message. -/
  concatHeader : Nat
  /-- The header that addresses a port. -/
  portHeader : Nat
deriving DecidableEq

/-- The room of the standard: 140 octets, 6 for either header. -/
def SegmentLimits.standard : SegmentLimits := ⟨140, 6, 6⟩

/-- What is to be sent. -/
inductive Payload
  | text (body : String)
  | data (octets : Octets) (port : Option UInt16)
deriving DecidableEq

/-- There is nothing to send. -/
def Payload.isEmpty : Payload → Bool
  | .text body => body.toList.isEmpty
  | .data octets _ => octets.isEmpty

/-- One wide character makes the whole text wide. -/
def detectEncoding (text : List Char) : Encoding :=
  if Alphabet.isEncodable text then .gsm7 else .ucs2

/-- The units that a character takes: septets or wide units. -/
def unitLength (e : Encoding) (c : Char) : Nat :=
  match e with
  | .gsm7 => (Alphabet.septetLength? c).getD 1
  | .ucs2 | .binary => Utf16.unitCount c

/-- The units that a text takes. -/
def textLength (e : Encoding) : List Char → Nat
  | [] => 0
  | c :: cs => unitLength e c + textLength e cs

/-- The payload of a piece of text. -/
def encodeText (e : Encoding) (text : List Char) : Octets :=
  match e with
  | .gsm7 => (Alphabet.encode? text).getD []
  | .ucs2 | .binary => Utf16.encode text

/-! ### The greedy cut -/

/-- The longest run of characters that fits into `room` units, and the rest. -/
def fill (width : Char → Nat) : Nat → List Char → List Char × List Char
  | _, [] => ([], [])
  | room, c :: cs =>
    if width c ≤ room then
      let (taken, rest) := fill width (room - width c) cs
      (c :: taken, rest)
    else ([], c :: cs)

theorem length_fill_snd_le (width : Char → Nat) (room : Nat) (cs : List Char) :
    (fill width room cs).2.length ≤ cs.length := by
  induction cs generalizing room with
  | nil => simp [fill]
  | cons c cs ih =>
    simp only [fill]
    split
    · exact Nat.le_succ_of_le (ih _)
    · simp

/-- **The greedy cut**: every piece takes one character and then as many more as fit. -/
def pieces (width : Char → Nat) (capacity : Nat) : List Char → List (List Char)
  | [] => []
  | c :: cs =>
    (c :: (fill width (capacity - width c) cs).1) ::
      pieces width capacity (fill width (capacity - width c) cs).2
termination_by text => text.length
decreasing_by
  have := length_fill_snd_le width (capacity - width c) cs
  simp only [List.length_cons]; omega

namespace SegmentLimits

/-- **Capacity**: the units of an encoding that one part holds beside its header.  A septet payload
starts at a septet boundary, so its header counts whole septets. -/
def capacity (l : SegmentLimits) (e : Encoding) (multipart : Bool) : Nat :=
  let header := if multipart then l.concatHeader else 0
  match e with
  | .gsm7 => l.userData * 8 / 7 - (header * 8 + 6) / 7
  | .ucs2 => (l.userData - header) / 2
  | .binary => l.userData - l.portHeader

/-- The pieces of a text: the whole text if it fits, else the greedy cut, which fails at the first
character that is wider than a part. -/
def cutText (l : SegmentLimits) (e : Encoding) (text : List Char) :
    Except Failure (List (List Char)) :=
  if textLength e text ≤ l.capacity e false then .ok [text]
  else
    let room := l.capacity e true
    match text.find? (room < unitLength e ·) with
    | some c => .error (.invalidArgument (.charTooWide room c))
    | none => .ok (pieces (unitLength e) room text)

/-- The parts whose texts are the given pieces. -/
def partsOfPieces (e : Encoding) (texts : List (List Char)) : List Part :=
  texts.mapIdx fun index piece =>
    { index
      total := texts.length
      encoding := e
      text := some (String.ofList piece)
      payload := encodeText e piece
      port := none }

/-- **The parts of a text.** -/
def segmentText (l : SegmentLimits) (text : String) : Except Failure (List Part) :=
  match text.toList with
  | [] => .error (.invalidArgument .noText)
  | c :: cs =>
    let e := detectEncoding (c :: cs)
    (l.cutText e (c :: cs)).map (partsOfPieces e)

/-- The octets of data that one part takes. -/
def dataLimit (l : SegmentLimits) (port : Option UInt16) : Nat :=
  if port.isSome then l.capacity .binary false else l.userData

/-- **The part of a datum**, which has to fit whole. -/
def segmentData (l : SegmentLimits) (octets : Octets) (port : Option UInt16) :
    Except Failure (List Part) :=
  if octets.isEmpty then .error (.invalidArgument .noData)
  else if l.dataLimit port < octets.length then
    .error (.invalidArgument (.dataTooLong octets.length (l.dataLimit port)))
  else
    .ok [{ index := 0, total := 1, encoding := .binary, text := none, payload := octets, port }]

/-- **Cuts a payload** into parts. -/
def segment (l : SegmentLimits) : Payload → Except Failure (List Part)
  | .text body => l.segmentText body
  | .data octets port => l.segmentData octets port

end SegmentLimits

end ShortMessage
