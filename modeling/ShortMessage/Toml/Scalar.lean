import ShortMessage.Calendar
import ShortMessage.Toml.Quoted
import ShortMessage.Toml.Value

/-!
# Scalars in TOML

Truth values, integers, reals, dates and times.  All but dates and times are words, which are taken
whole and then read.

* `Toml.integer?`: decimal with a sign, or in another base after `0x`, `0o` or `0b`;
* `Toml.real?`: a decimal with a fraction or an exponent, or a word;
* `Toml.moment?`: a date, a time or both, with an offset or without;
* `Toml.scalar?`: a scalar of any kind.

Between two digits of a number may stand an underscore, which does not count.
-/

namespace ShortMessage.Toml

/-! ### Numbers -/

/-- Digits without the underscores between them. -/
def ungroup? (base : Nat) : List Char → Option (List Char)
  | [] => none
  | [c] => if Text.isDigit base c then some [c] else none
  | c :: '_' :: rest =>
    if Text.isDigit base c then (ungroup? base rest).map (c :: ·) else none
  | c :: rest => if Text.isDigit base c then (ungroup? base rest).map (c :: ·) else none

/-- Decimal digits that do not begin with a zero, unless that is all. -/
def whole? (text : List Char) : Option (List Char) := do
  let digits ← ungroup? 10 text
  if digits.head? = some '0' ∧ 1 < digits.length then none else pure digits

/-- An integer in a base; it has no sign, and may begin with zeros. -/
def based? (base : Nat) (text : List Char) : Option Int := do
  let value ← Text.number? base (← ungroup? base text)
  pure value

/-- An integer; only a decimal one has a sign. -/
def integer? (word : List Char) : Option Int :=
  match word with
  | '0' :: 'x' :: rest => based? 16 rest
  | '0' :: 'o' :: rest => based? 8 rest
  | '0' :: 'b' :: rest => based? 2 rest
  | _ => do
    let (negative, rest) := Text.splitSign word
    let value ← Text.number? 10 (← whole? rest)
    pure (if negative then -(value : Int) else value)

/-- The fraction and the exponent of a real, without underscores; one of them has to be there. -/
def realTail? (text : List Char) : Option (List Char) := do
  let power? (rest : List Char) : Option (List Char) :=
    match rest with
    | [] => some []
    | mark :: rest =>
      let (negative, digits) := Text.splitSign rest
      (ungroup? 10 digits).map fun digits => mark :: (if negative then '-' else '+') :: digits
  match text with
  | [] => none
  | '.' :: rest =>
    let fraction ← ungroup? 10 (rest.takeWhile (!Binary64.isExponentMark ·))
    let power ← power? (rest.dropWhile (!Binary64.isExponentMark ·))
    pure ('.' :: fraction ++ power)
  | rest => power? rest

/-- What ends the whole part of a real. -/
def isRealMark (c : Char) : Bool :=
  c = '.' || Binary64.isExponentMark c

/-- A real: a decimal with a fraction or an exponent, or one of two words. -/
def real? (word : List Char) : Option Binary64 :=
  let (negative, rest) := Text.splitSign word
  if rest = ['i', 'n', 'f'] then some (.infinite negative)
  else if rest = ['n', 'a', 'n'] then some .nan
  else do
    let whole ← whole? (rest.takeWhile (!isRealMark ·))
    let tail ← realTail? (rest.dropWhile (!isRealMark ·))
    Binary64.decimal? negative (whole ++ tail)

/-! ### Dates and times -/

/-- A mark that must come next. -/
def mark? (mark : Char) : List Char → Option (List Char)
  | c :: rest => if c = mark then some rest else none
  | [] => none

/-- A date of the calendar, as it is written, and the rest. -/
def date? (text : List Char) : Option (List Char × List Char) := do
  let (year, rest) ← Text.fixedNumber? 4 text
  let (month, rest) ← Text.fixedNumber? 2 (← mark? '-' rest)
  let (day, rest) ← Text.fixedNumber? 2 (← mark? '-' rest)
  if Date.IsValid ⟨year, month, day⟩ then pure (text.take 10, rest) else none

/-- The fraction of a second, as far as nine digits and without zeros at its end. -/
def fraction? : List Char → Option (List Char × List Char)
  | '.' :: rest =>
    let digits := rest.takeWhile Char.isDigit
    if digits.isEmpty then none
    else
      let kept := ((digits.take 9).reverse.dropWhile (· = '0')).reverse
      some (if kept.isEmpty then [] else '.' :: kept, rest.dropWhile Char.isDigit)
  | text => some ([], text)

/-- The seconds of a time, which may be left out, and their fraction. -/
def seconds? : List Char → Option (List Char × List Char)
  | ':' :: text => do
    let (second, rest) ← Text.fixedNumber? 2 text
    let (fraction, rest) ← fraction? rest
    if 60 < second then none else pure (':' :: text.take 2 ++ fraction, rest)
  | text => some ([], text)

/-- A time of the day, and the rest. -/
def time? (text : List Char) : Option (List Char × List Char) := do
  let (hour, rest) ← Text.fixedNumber? 2 text
  let (minute, rest) ← Text.fixedNumber? 2 (← mark? ':' rest)
  if 23 < hour ∨ 59 < minute then none
  else
    let (seconds, rest) ← seconds? rest
    pure (text.take 5 ++ seconds, rest)

/-- The signs of a number or an offset. -/
def isSign (c : Char) : Bool :=
  c = '+' || c = '-'

/-- An offset from universal time; there need not be one. -/
def offset? : List Char → Option (List Char × List Char)
  | [] => some ([], [])
  | c :: rest =>
    if c = 'Z' ∨ c = 'z' then some (['Z'], rest)
    else if isSign c then do
      let (hours, after) ← Text.fixedNumber? 2 rest
      let (minutes, after) ← Text.fixedNumber? 2 (← mark? ':' after)
      if 23 < hours ∨ 59 < minutes then none else pure (c :: rest.take 5, after)
    else some ([], c :: rest)

/-- The time and the offset that may follow a date. -/
def timeAfterDate? (text : List Char) : Option (List Char × List Char) :=
  match text with
  | c :: rest =>
    if c = 'T' ∨ c = 't' ∨ (c = ' ' ∧ (time? rest).isSome) then do
      let (time, rest) ← time? rest
      let (offset, rest) ← offset? rest
      pure ('T' :: time ++ offset, rest)
    else some ([], text)
  | [] => some ([], [])

/-- A date, a time or both, as they are written in full. -/
def moment? (text : List Char) : Option (List Char × List Char) :=
  match date? text with
  | some (date, rest) => do
    let (time, rest) ← timeAfterDate? rest
    pure (date ++ time, rest)
  | none => time? text

/-! ### Scalars of any kind -/

/-- The characters of a word, which is taken whole. -/
def isWordChar (c : Char) : Bool :=
  c.isAlphanum || c = '_' || c = '.' || isSign c

/-- The value of a word; what can be an integer is no real. -/
def ofWord? (word : List Char) : Option Value :=
  if word = "true".toList then some (.bool true)
  else if word = "false".toList then some (.bool false)
  else
    match integer? word with
    | some n => some (.integer n)
    | none => (real? word).map .real

/-- **A scalar** that is no quoted text. -/
def scalar? (text : List Char) : Option (Value × List Char) :=
  match moment? text with
  | some (m, rest) => some (.moment (String.ofList m), rest)
  | none => (ofWord? (text.takeWhile isWordChar)).map (·, text.dropWhile isWordChar)

end ShortMessage.Toml
