import ShortMessage.Card.Table
import ShortMessage.Text.Numeral

/-!
# Slot tables as text

A table that outlives the program is kept as text, one line a row: the index, the stored status and
the data in hexadecimal.

* `SlotTable.toText`: the text of a table;
* `SlotTable.ofText?`: the table of a text, if it is one.
-/

namespace ShortMessage.SlotTable

/-- A row on a line of its own: index, status and data. -/
def Row.toLine (r : Row) : String :=
  s!"{r.index} {r.status.toInt} {r.data.toHex}\n"

/-- The rows of a table, a line for each. -/
def toText (t : SlotTable) : String :=
  String.join (t.rows.map Row.toLine)

/-- Reads a row; its index and status are 64-bit numbers with a sign. -/
def Row.ofLine? (line : String) : Option Row :=
  match line.splitOn " " with
  | [index, status, data] => do
    let index ← Text.signed? (-0x8000000000000000) 0x7FFFFFFFFFFFFFFF index
    let status ← Text.signed? (-0x8000000000000000) 0x7FFFFFFFFFFFFFFF status
    let data ← (Octets.ofHex data).toOption
    pure ⟨index, Int64.ofInt status, data⟩
  | _ => none

/-- The rows may stand in any order; of two with one index the first counts. -/
def ofText? (text : String) : Option SlotTable := do
  let rows ← ((text.splitOn "\n").filter (· ≠ "")).mapM Row.ofLine?
  pure (rows.foldl addMissing empty)

end ShortMessage.SlotTable
