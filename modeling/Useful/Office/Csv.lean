/-
# Comma-separated values

`stringifyCsv` quotes the cells that need it and puts an apostrophe before what a spreadsheet would
take for a formula. `parseCsv` reads the text back unit by unit. A text says nothing about an empty
cell that is alone in the last row, and the apostrophe may make a cell longer than the reader
allows; otherwise the rows come back as they were written.
-/

import Useful.Math.JsText
import Useful.Math.Utf8
import Useful.Office.ZipPreflight

namespace Useful.Office

open Useful.Math JsText

namespace OFFICE_LIMITS

def modelTextChars : Nat := 100000

def rowsPerSheet : Nat := 100000

def cells : Nat := 1000000

def csvBytes : Nat := 16 * 1024 * 1024

def csvColumns : Nat := 10000

def tableRows : Nat := 4096

def tableColumns : Nat := 256

end OFFICE_LIMITS

/-- `new TextEncoder().encode(text).byteLength` -/
def byteLength (text : JsText) : Nat := (utf8 (scalars text)).length

namespace Csv

/-! ## Writing -/

def quoteMark : Nat := 34

def isLineBreak (unit : Nat) : Bool := unit == 13 || unit == 10

/-- `FORMULA`: an equals sign, a plus, a hyphen or an at sign after white space. -/
def isFormula (text : JsText) : Bool :=
  match text.dropWhile isSpace with
  | [] => false
  | unit :: _ => unit == 61 || unit == 43 || unit == 45 || unit == 64

def escapeSpreadsheetFormula (text : JsText) : JsText :=
  if isFormula text then 39 :: text else text

/-- A delimiter is one code unit that is neither a quotation mark nor a line break. -/
def isDelimiter (text : JsText) : Bool :=
  text.length == 1 && !text.any fun unit => unit == quoteMark || isLineBreak unit

structure StringifyOptions where
  delimiter : Option JsText
  lineEnding : Option JsText
  escapeFormulas : Option Bool

/-- The cell that is written for a cell. -/
def written (escapeFormulas : Bool) (cell : JsText) : JsText :=
  if escapeFormulas then escapeSpreadsheetFormula cell else cell

def doubled (text : JsText) : JsText :=
  text.flatMap fun unit => if unit = quoteMark then [quoteMark, quoteMark] else [unit]

/-- Whether a text has to be quoted. -/
def needsQuotes (delimiter : JsText) (text : JsText) : Bool :=
  text.any fun unit => delimiter.contains unit || unit == quoteMark || isLineBreak unit

/-- What `encode` makes of the text that it writes. -/
def quoted (delimiter : JsText) (text : JsText) : JsText :=
  if needsQuotes delimiter (doubled text) then quoteMark :: (doubled text ++ [quoteMark])
  else doubled text

def encode (delimiter : JsText) (escapeFormulas : Bool) (cell : JsText) :
    Except OfficeCoreError JsText := do
  assert (cell.length ≤ OFFICE_LIMITS.modelTextChars) "INPUT_TOO_LARGE" "CSV field exceeds limit" []
  return quoted delimiter (written escapeFormulas cell)

/-- The lines of the rows, after a number of cells. -/
@[grind =]
def lines (delimiter : JsText) (escapeFormulas : Bool) :
    Nat → List (List JsText) → Except OfficeCoreError (List JsText)
  | _, [] => .ok []
  | cells, row :: rows => do
      assert (row.length ≤ OFFICE_LIMITS.csvColumns) "INPUT_INVALID" "CSV row must be an array" []
      assert (cells + row.length ≤ OFFICE_LIMITS.cells) "INPUT_TOO_LARGE"
        "CSV cell count exceeds limit" []
      let fields ← row.mapM (encode delimiter escapeFormulas)
      let rest ← lines delimiter escapeFormulas (cells + row.length) rows
      return delimiter.intercalate fields :: rest

def stringifyCsv (rows : List (List JsText)) (options : StringifyOptions) :
    Except OfficeCoreError JsText := do
  assert (rows.length ≤ OFFICE_LIMITS.rowsPerSheet) "INPUT_INVALID" "CSV rows must be an array" []
  let delimiter := options.delimiter.getD [44]
  let lineEnding := options.lineEnding.getD [13, 10]
  let escapeFormulas := options.escapeFormulas ≠ some false
  assert (isDelimiter delimiter) "INPUT_INVALID" "CSV delimiter must be one character" []
  assert (lineEnding = [10] ∨ lineEnding = [13, 10]) "INPUT_INVALID" "Invalid line ending" []
  let fields ← lines delimiter escapeFormulas 0 rows
  let text := lineEnding.intercalate fields
  assert (byteLength text ≤ OFFICE_LIMITS.csvBytes) "OUTPUT_TOO_LARGE" "CSV output exceeds limit" []
  return text

/-! ## Reading -/

structure ParseOptions where
  delimiter : Option JsText
  maxRows : Option Int
  maxColumns : Option Int

/-- What the reader allows. -/
structure ReadLimits where
  fieldChars : Nat
  columns : Nat
  cells : Nat
  rows : Nat

structure State where
  rows : List (List JsText)
  row : List JsText
  field : JsText
  quoted : Bool
  cells : Nat

def State.empty : State := ⟨[], [], [], false, 0⟩

namespace State

variable (limits : ReadLimits)

def append (st : State) (unit : Nat) : Except OfficeCoreError State := do
  let field := st.field ++ [unit]
  assert (field.length ≤ limits.fieldChars) "INPUT_TOO_LARGE" "CSV field exceeds limit" []
  return { st with field }

def pushField (st : State) : Except OfficeCoreError State := do
  let row := st.row ++ [st.field]
  let cells := st.cells + 1
  assert (row.length ≤ limits.columns) "CSV_TOO_MANY_COLUMNS" "CSV column count exceeds limit" []
  assert (cells ≤ limits.cells) "INPUT_TOO_LARGE" "CSV cell count exceeds limit" []
  return { st with row, field := [], cells }

def pushRow (st : State) : Except OfficeCoreError State := do
  let rows := st.rows ++ [st.row]
  assert (rows.length ≤ limits.rows) "CSV_TOO_MANY_ROWS" "CSV row count exceeds limit" []
  return { st with rows, row := [] }

end State

/-- The loop of `parseCsv`. -/
@[grind =]
def scan (limits : ReadLimits) (delimiter : JsText) : State → JsText → Except OfficeCoreError State
  | st, [] => .ok st
  | st, unit :: rest =>
      if st.quoted then
        if unit = quoteMark then
          match rest with
          | 34 :: rest => do
              let st ← st.append limits quoteMark
              scan limits delimiter st rest
          | rest => scan limits delimiter { st with quoted := false } rest
        else do
          let st ← st.append limits unit
          scan limits delimiter st rest
      else if unit = quoteMark ∧ st.field.length = 0 then
        scan limits delimiter { st with quoted := true } rest
      else if [unit] = delimiter then do
        let st ← st.pushField limits
        scan limits delimiter st rest
      else if unit = 13 ∨ unit = 10 then do
        let st ← st.pushField limits
        let st ← st.pushRow limits
        match unit, rest with
        | 13, 10 :: rest => scan limits delimiter st rest
        | _, rest => scan limits delimiter st rest
      else do
        assert (unit ≠ quoteMark) "CSV_INVALID" "Quote inside unquoted CSV field" []
        let st ← st.append limits unit
        scan limits delimiter st rest

/-- Whether a field is pending at the end of the text. -/
def Pending (text : JsText) (st : State) : Prop :=
  st.field.length ≠ 0 ∨ st.row.length ≠ 0 ∨ st.rows.length = 0 ∧ text.length ≠ 0

instance (text : JsText) (st : State) : Decidable (Pending text st) :=
  inferInstanceAs (Decidable (_ ∨ _))

def pushPending (limits : ReadLimits) (text : JsText) (st : State) :
    Except OfficeCoreError State :=
  if Pending text st then do
    let st ← st.pushField limits
    st.pushRow limits
  else .ok st

/-- What is done at the end of the text. -/
def finish (limits : ReadLimits) (text : JsText) (st : State) :
    Except OfficeCoreError (List (List JsText)) := do
  assert (st.quoted = false) "CSV_INVALID" "Unterminated quoted CSV field" []
  let st ← pushPending limits text st
  assert (st.rows.length ≤ limits.rows) "CSV_TOO_MANY_ROWS" "CSV row count exceeds limit" []
  return st.rows

def readRows (limits : ReadLimits) (delimiter text : JsText) :
    Except OfficeCoreError (List (List JsText)) := do
  let st ← scan limits delimiter .empty text
  finish limits text st

def parseCsv (text : JsText) (options : ParseOptions) :
    Except OfficeCoreError (List (List JsText) × JsText) := do
  assert (byteLength text ≤ OFFICE_LIMITS.csvBytes) "INPUT_TOO_LARGE" "CSV exceeds limit" []
  let delimiter := options.delimiter.getD [44]
  assert (isDelimiter delimiter) "INPUT_INVALID" "CSV delimiter must be one character" []
  let maxRows := options.maxRows.getD 100000
  let maxColumns := options.maxColumns.getD 1000
  assert (1 ≤ maxRows ∧ maxRows ≤ OFFICE_LIMITS.rowsPerSheet) "INPUT_INVALID"
    "Invalid CSV row limit" []
  assert (1 ≤ maxColumns ∧ maxColumns ≤ OFFICE_LIMITS.csvColumns) "INPUT_INVALID"
    "Invalid CSV column limit" []
  let limits := ⟨OFFICE_LIMITS.modelTextChars, maxColumns.toNat, OFFICE_LIMITS.cells, maxRows.toNat⟩
  let rows ← readRows limits delimiter text
  return (rows, delimiter)

end Csv

end Useful.Office
