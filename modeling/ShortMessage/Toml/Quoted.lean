import ShortMessage.Text.Numeral

/-!
# Quoted text in TOML

A text stands between double quotes, with escapes, or between single quotes, in which every
character stands for itself.  Three quotes at once begin a text of many lines, which may also hold
quotes.

* `Toml.basic?`, `literal?`: texts of one line, after the opening quote;
* `Toml.basicLines?`, `literalLines?`: texts of many lines, after the three opening quotes;
* `Toml.quoted?`: a text of any kind.
-/

namespace ShortMessage.Toml

/-- The control characters that may not stand in a document, except for line breaks. -/
def isForbidden (c : Char) : Bool :=
  (c.toNat < 0x20 && c ≠ '\t') || c.toNat = 0x7F

/-- Blank space within a line. -/
def isSpace (c : Char) : Bool :=
  c = ' ' || c = '\t'

/-- What one letter after a backslash stands for. -/
def escape? : Char → Option Char
  | 'b' => some '\x08'
  | 't' => some '\t'
  | 'n' => some '\n'
  | 'f' => some '\x0c'
  | 'r' => some '\r'
  | 'e' => some '\x1b'
  | '"' => some '"'
  | '\\' => some '\\'
  | _ => none

/-- The character with a number in hexadecimal, if there is one. -/
def numbered? (digits : List Char) : Option Char := do
  let n ← Text.number? 16 digits
  if n.isValidChar then pure (Char.ofNat n) else none

/-- A text between double quotes, up to and with the closing one. -/
def basic? : List Char → Option (List Char × List Char)
  | '"' :: rest => some ([], rest)
  | '\\' :: 'x' :: a :: b :: rest => do
    let char ← numbered? [a, b]
    let (text, rest) ← basic? rest
    pure (char :: text, rest)
  | '\\' :: 'u' :: a :: b :: c :: d :: rest => do
    let char ← numbered? [a, b, c, d]
    let (text, rest) ← basic? rest
    pure (char :: text, rest)
  | '\\' :: 'U' :: a :: b :: c :: d :: e :: f :: g :: h :: rest => do
    let char ← numbered? [a, b, c, d, e, f, g, h]
    let (text, rest) ← basic? rest
    pure (char :: text, rest)
  | '\\' :: letter :: rest => do
    let char ← escape? letter
    let (text, rest) ← basic? rest
    pure (char :: text, rest)
  | char :: rest => do
    if isForbidden char then none
    else
      let (text, rest) ← basic? rest
      pure (char :: text, rest)
  | [] => none

/-- A text between single quotes, up to and with the closing one. -/
def literal? : List Char → Option (List Char × List Char)
  | '\'' :: rest => some ([], rest)
  | char :: rest => do
    if isForbidden char then none
    else
      let (text, rest) ← literal? rest
      pure (char :: text, rest)
  | [] => none

/-- Drops a line break. -/
def newline? : List Char → Option (List Char)
  | '\n' :: rest => some rest
  | '\r' :: '\n' :: rest => some rest
  | _ => none

/-- Does only blank space follow, up to the end of the line? -/
def endsLine (text : List Char) : Bool :=
  (newline? (text.dropWhile isSpace)).isSome

/-- A text between threefold double quotes, up to and with the closing ones.  While `skipping`,
blank space and line breaks are passed over: a backslash at the end of a line begins that. -/
def basicLines? (skipping : Bool) : List Char → Option (List Char × List Char)
  | '"' :: '"' :: '"' :: '"' :: '"' :: rest => some (['"', '"'], rest)
  | '"' :: '"' :: '"' :: '"' :: rest => some (['"'], rest)
  | '"' :: '"' :: '"' :: rest => some ([], rest)
  | '\r' :: '\n' :: rest =>
    if skipping then basicLines? true rest
    else do
      let (text, rest) ← basicLines? false rest
      pure ('\n' :: text, rest)
  | '\\' :: 'x' :: a :: b :: rest => do
    let char ← numbered? [a, b]
    let (text, rest) ← basicLines? false rest
    pure (char :: text, rest)
  | '\\' :: 'u' :: a :: b :: c :: d :: rest => do
    let char ← numbered? [a, b, c, d]
    let (text, rest) ← basicLines? false rest
    pure (char :: text, rest)
  | '\\' :: 'U' :: a :: b :: c :: d :: e :: f :: g :: h :: rest => do
    let char ← numbered? [a, b, c, d, e, f, g, h]
    let (text, rest) ← basicLines? false rest
    pure (char :: text, rest)
  | '\\' :: letter :: rest =>
    if endsLine (letter :: rest) then
      if letter = '\r' then basicLines? true (letter :: rest) else basicLines? true rest
    else do
      let char ← escape? letter
      let (text, rest) ← basicLines? false rest
      pure (char :: text, rest)
  | char :: rest =>
    if skipping ∧ (isSpace char ∨ char = '\n') then basicLines? true rest
    else if isForbidden char ∧ char ≠ '\n' then none
    else do
      let (text, rest) ← basicLines? false rest
      pure (char :: text, rest)
  | [] => none

/-- A text between threefold single quotes, up to and with the closing ones. -/
def literalLines? : List Char → Option (List Char × List Char)
  | '\'' :: '\'' :: '\'' :: '\'' :: '\'' :: rest => some (['\'', '\''], rest)
  | '\'' :: '\'' :: '\'' :: '\'' :: rest => some (['\''], rest)
  | '\'' :: '\'' :: '\'' :: rest => some ([], rest)
  | '\r' :: '\n' :: rest => do
    let (text, rest) ← literalLines? rest
    pure ('\n' :: text, rest)
  | char :: rest =>
    if isForbidden char ∧ char ≠ '\n' then none
    else do
      let (text, rest) ← literalLines? rest
      pure (char :: text, rest)
  | [] => none

/-- The line break right after threefold quotes does not count. -/
def dropFirstBreak (text : List Char) : List Char :=
  (newline? text).getD text

/-- A text of one line, with its quotes. -/
def quotedLine? : List Char → Option (List Char × List Char)
  | '"' :: rest => basic? rest
  | '\'' :: rest => literal? rest
  | _ => none

/-- **A quoted text** of any kind. -/
def quoted? : List Char → Option (List Char × List Char)
  | '"' :: '"' :: '"' :: rest => basicLines? false (dropFirstBreak rest)
  | '\'' :: '\'' :: '\'' :: rest => literalLines? (dropFirstBreak rest)
  | text => quotedLine? text

end ShortMessage.Toml
