import ShortMessage.Calendar
import ShortMessage.Text.Blank
import ShortMessage.Text.Numeral
import ShortMessage.Timestamp

/-!
# Instants as text

An instant is written as date, `T`, time and `Z`, with as many groups of three fraction digits as it
needs.  Read is more: another letter or a blank between date and time, blanks before numbers and
marks, and any offset from universal time.

* `Timestamp.toText`: the written form;
* `Timestamp.ofText?`: the reader, from the small readers `year?`, `mark?`, `clockTime?`,
  `fraction?` and `offset?` that precede it.
-/

namespace ShortMessage.Timestamp

open Text

/-- Days have no leap seconds in the count of seconds. -/
def secondsPerDay : Int := 86400

/-- The day that the count of seconds begins with. -/
def firstDay : Int := Date.dayNumber ⟨1970, 1, 1⟩

/-- The years that instants may fall in. -/
def isInRange (year : Int) : Bool :=
  -262143 ≤ year && year ≤ 262142

/-- The date that an instant falls on. -/
def date (t : Timestamp) : Date :=
  .ofDayNumber (t.seconds / secondsPerDay + firstDay)

/-! ### Writing -/

/-- Four digits; a year that has more, or is before year 0, also has a sign. -/
def yearText (year : Int) : List Char :=
  if 0 ≤ year ∧ year ≤ 9999 then fixed 10 4 year.toNat
  else
    let sign := if year < 0 then '-' else '+'
    let size := year.natAbs
    sign :: (if size ≤ 9999 then fixed 10 4 size else (toString size).toList)

/-- No digits, or the fewest groups of three that lose nothing. -/
def fractionText (nanos : Nat) : List Char :=
  if nanos = 0 then []
  else if nanos % 1000000 = 0 then '.' :: fixed 10 3 (nanos / 1000000)
  else if nanos % 1000 = 0 then '.' :: fixed 10 6 (nanos / 1000)
  else '.' :: fixed 10 9 nanos

/-- The written form; a leap second is second sixty of its minute. -/
def toText (t : Timestamp) : String :=
  let date := t.date
  let time := (t.seconds % secondsPerDay).toNat
  let (second, nanos) :=
    if t.nanos < 1000000000 then (time % 60, t.nanos) else (time % 60 + 1, t.nanos - 1000000000)
  .ofList <|
    yearText date.year ++ '-' :: fixed 10 2 date.month ++ '-' :: fixed 10 2 date.day ++
      'T' :: fixed 10 2 (time / 3600) ++ ':' :: fixed 10 2 (time / 60 % 60) ++
      ':' :: fixed 10 2 second ++ fractionText nanos ++ ['Z']

/-! ### Reading -/

/-- A year: up to four digits, or any count of them after a sign. -/
def year? (text : List Char) : Option (Int × List Char) :=
  match dropBlanks text with
  | '-' :: rest => (leadingNumber? rest.length rest).map fun (n, rest) => (-(n : Int), rest)
  | '+' :: rest => (leadingNumber? rest.length rest).map fun (n, rest) => ((n : Int), rest)
  | text => (leadingNumber? 4 text).map fun (n, rest) => ((n : Int), rest)

/-- A mark, which blanks may precede. -/
def mark? (mark : Char) (text : List Char) : Option (List Char) :=
  match dropBlanks text with
  | c :: rest => if c = mark then some rest else none
  | [] => none

/-- A number of one or two digits, which blanks may precede. -/
def pair? (text : List Char) : Option (Nat × List Char) :=
  leadingNumber? 2 (dropBlanks text)

/-- A date, which has to be one of the calendar. -/
def date? (text : List Char) : Option (Date × List Char) := do
  let (year, text) ← year? text
  let (month, text) ← pair? (← mark? '-' text)
  let (day, text) ← pair? (← mark? '-' text)
  let date : Date := ⟨year, month, day⟩
  if date.IsValid ∧ isInRange year then pure (date, text) else none

/-- What stands between date and time. -/
def separator? : List Char → Option (List Char)
  | c :: rest => if c = 'T' ∨ c = 't' ∨ c = ' ' then some rest else none
  | [] => none

/-- Hours, minutes and seconds, as seconds of the day; second sixty is a second that the day has
not, and counts as the one before with a whole second more. -/
def clockTime? (text : List Char) : Option ((Nat × Nat) × List Char) := do
  let (hour, text) ← pair? text
  let (minute, text) ← pair? (← mark? ':' text)
  let (second, text) ← pair? (← mark? ':' text)
  if 23 < hour ∨ 59 < minute ∨ 60 < second then none
  else
    let start := 3600 * hour + 60 * minute
    pure (if second = 60 then (start + 59, 1000000000) else (start + second, 0), text)

/-- Fraction digits as nanoseconds; what goes beyond nine is dropped. -/
def fraction? (text : List Char) : Option (Nat × List Char) :=
  match text with
  | '.' :: rest => do
    let (digits, rest) := leading 10 9 rest
    if digits.isEmpty then none
    else
      let value ← number? 10 digits
      pure (value * Nat.pow 10 (9 - digits.length), rest.dropWhile (isDigit 10))
  | _ => some (0, text)

/-- Exactly two digits of a number below `limit`. -/
def twoDigits? (limit : Nat) (text : List Char) : Option (Nat × List Char) := do
  let (value, rest) ← fixedNumber? 2 text
  if value < limit then pure (value, rest) else none

/-- The sign of an offset; a minus sign may also be the mathematical one. -/
def offsetSign? : List Char → Option (Int × List Char)
  | '+' :: rest => some (1, rest)
  | '-' :: rest => some (-1, rest)
  | '−' :: rest => some (-1, rest)
  | _ => none

/-- An offset of less than a day, in seconds, or a name of universal time. -/
def offset? (text : List Char) : Option (Int × List Char) :=
  if (text.take 3).map Char.toUpper = ['U', 'T', 'C'] then some (0, text.drop 3)
  else
    match text with
    | 'Z' :: rest => some (0, rest)
    | 'z' :: rest => some (0, rest)
    | _ => do
      let (sign, text) ← offsetSign? text
      let (hours, text) ← twoDigits? 100 text
      let (minutes, text) ← twoDigits? 60 (text.dropWhile fun c => c = ':' || isBlank c)
      let size := 3600 * hours + 60 * minutes
      if size < 86400 then pure (sign * size, text) else none

/-- **Reads an instant**; blanks may follow it, and nothing else. -/
def ofText? (text : String) : Option Timestamp := do
  let (date, text) ← date? text.toList
  let ((second, more), text) ← clockTime? (← separator? text)
  let (nanos, text) ← fraction? text
  let (offset, text) ← offset? (dropBlanks text)
  let t : Timestamp :=
    ⟨(date.dayNumber - firstDay) * secondsPerDay + second - offset, more + nanos⟩
  if (dropBlanks text).isEmpty ∧ isInRange t.date.year then pure t else none

end ShortMessage.Timestamp
