/-
# Markdown tables

`rowsToMarkdownTable` writes cells between pipes and escapes backslashes, pipes and angle brackets;
`docxToMarkdown` writes the tables of a document with an escaper of its own, which knows pipes only.
`parseMarkdownTable` reads either.
-/

import Useful.Office.Csv

namespace Useful.Office

open Useful.Math JsText

namespace OFFICE_LIMITS

def blocks : Nat := 2000

def xmlTextBytes : Nat := 2 * 1024 * 1024

end OFFICE_LIMITS

namespace Markdown

/-! ## Writing cells and rows -/

/-- A value of a cell; a number has its text when it is finite. -/
inductive Cell
  | missing
  | number (text : Option JsText)
  | boolean (value : Bool)
  | formula (formula : JsText)
  | text (value : JsText)

def cellText : Cell → Except OfficeCoreError JsText
  | .missing => .ok []
  | .number text => orFail ⟨"INPUT_INVALID", "Table numbers must be finite", []⟩ text
  | .boolean value => .ok (ofString (if value then "true" else "false"))
  | .formula formula => .ok (61 :: formula)
  | .text value => .ok value

/-- `text.replaceAll(unit, new)`, for one code unit. -/
def replaceUnit (unit : Nat) (new text : JsText) : JsText :=
  text.flatMap fun u => if u = unit then new else [u]

/-- A line break, or a control character other than a tab. -/
def isControl (unit : Nat) : Bool := unit ≤ 8 || (10 ≤ unit && unit ≤ 31)

def escapeText (text : JsText) : JsText :=
  replaceUnit 62 (ofString "&gt;") (replaceUnit 60 (ofString "&lt;")
    (replaceUnit 124 [92, 124] (replaceUnit 92 [92, 92] text)))

def escapeCell (value : Cell) : Except OfficeCoreError JsText := do
  let text ← cellText value
  assert (text.length ≤ OFFICE_LIMITS.modelTextChars) "INPUT_TOO_LARGE"
    "Markdown table cell exceeds limit" []
  assert (text.any isControl = false) "INPUT_INVALID"
    "Markdown table cells must be single-line text" []
  return escapeText text

/-- The rows of `normalizeRows` before they are padded, with the number of columns and of cells. -/
def escapeRows : Nat → Nat → List (List Cell) →
    Except OfficeCoreError (List (List JsText) × Nat)
  | columns, _, [] => .ok ([], columns)
  | columns, cells, row :: rows => do
      assert (row.length ≤ OFFICE_LIMITS.tableColumns) "INPUT_TOO_LARGE"
        "Markdown table column count exceeds limit" []
      assert (cells + row.length ≤ OFFICE_LIMITS.cells) "INPUT_TOO_LARGE"
        "Markdown table cell count exceeds limit" []
      let fields ← row.mapM escapeCell
      let (rest, columns) ← escapeRows (max columns row.length) (cells + row.length) rows
      return (fields :: rest, columns)

/-- Fill a row with empty cells. -/
def pad (columns : Nat) (row : List JsText) : List JsText :=
  row ++ List.replicate (columns - row.length) []

def normalizeRows (rows : List (List Cell)) :
    Except OfficeCoreError (List (List JsText) × Nat) := do
  assert (1 ≤ rows.length ∧ rows.length ≤ OFFICE_LIMITS.tableRows) "INPUT_INVALID"
    "Markdown table rows must be a non-empty array" []
  let (normalized, columns) ← escapeRows 0 0 rows
  assert (1 ≤ columns) "INPUT_INVALID" "Markdown table must contain at least one column" []
  return (normalized.map (pad columns), columns)

/-- A row between pipes. -/
def line (row : List JsText) : JsText :=
  [124, 32] ++ [32, 124, 32].intercalate row ++ [32, 124]

def dashes : JsText := [45, 45, 45]

def separator (columns : Nat) : List JsText := List.replicate columns dashes

def newline : Nat := 10

/-- What stands in the header is the first row. -/
def withSeparator (columns : Nat) : List (List JsText) → List (List JsText)
  | [] => []
  | header :: body => header :: separator columns :: body

def rowsToMarkdownTable (rows : List (List Cell)) : Except OfficeCoreError JsText := do
  let (normalized, columns) ← normalizeRows rows
  let markdown := [newline].intercalate ((withSeparator columns normalized).map line) ++ [newline]
  assert (byteLength markdown ≤ OFFICE_LIMITS.csvBytes) "OUTPUT_TOO_LARGE"
    "Markdown table output exceeds limit" []
  return markdown

/-! ## Reading -/

structure LineState where
  cells : List JsText
  cell : JsText
  escaped : Bool

/-- What a character of a line does. A surrogate pair does what its halves do. -/
def LineState.step (st : LineState) (unit : Nat) : LineState :=
  if st.escaped then { st with cell := st.cell ++ [unit], escaped := false }
  else if unit = 92 then { st with escaped := true }
  else if unit = 124 then { st with cells := st.cells ++ [trim st.cell], cell := [] }
  else { st with cell := st.cell ++ [unit] }

def parseLine (text : JsText) : Except OfficeCoreError (List JsText) := do
  let trimmed := trim text
  assert (trimmed.head? = some 124 ∧ trimmed.getLast? = some 124) "MARKDOWN_TABLE_INVALID"
    "Markdown table rows must start and end with a pipe" []
  let st := (trimmed.drop 1).dropLast.foldl LineState.step ⟨[], [], false⟩
  assert (st.escaped = false) "MARKDOWN_TABLE_INVALID"
    "Markdown table contains a dangling escape" []
  let cells := st.cells ++ [trim st.cell]
  assert (1 ≤ cells.length ∧ cells.length ≤ OFFICE_LIMITS.tableColumns) "MARKDOWN_TABLE_INVALID"
    "Invalid Markdown table column count" []
  assert (∀ cell ∈ cells, cell.length ≤ OFFICE_LIMITS.modelTextChars) "INPUT_TOO_LARGE"
    "Markdown table cell exceeds limit" []
  return cells

/-- `/^:?-{3,}:?$/` -/
def isSeparator (cell : JsText) : Bool :=
  let body := if cell.head? = some 58 then cell.drop 1 else cell
  3 ≤ (body.takeWhile (· == 45)).length &&
    (body.dropWhile (· == 45) == [] || body.dropWhile (· == 45) == [58])

/-- The carriage return that belongs to a line break. -/
def dropReturn (text : JsText) : JsText :=
  if text.getLast? = some 13 then text.dropLast else text

/-- `markdown.split(/\r?\n/)` -/
def splitLines (text : JsText) : List JsText :=
  (text.splitOn newline).dropLast.map dropReturn ++ ((text.splitOn newline).getLast?.toList)

def isBlank (text : JsText) : Bool := trim text == []

/-- The lines without the blank ones at both ends. -/
def tableLines (markdown : JsText) : List JsText :=
  (((splitLines markdown).dropWhile isBlank).reverse.dropWhile isBlank).reverse

structure Table where
  rows : List (List JsText)
  columns : Nat

def parseMarkdownTable (markdown : JsText) : Except OfficeCoreError Table := do
  assert (byteLength markdown ≤ OFFICE_LIMITS.csvBytes) "INPUT_TOO_LARGE"
    "Markdown table exceeds limit" []
  let lines := tableLines markdown
  assert (2 ≤ lines.length ∧ lines.length ≤ OFFICE_LIMITS.tableRows + 1) "MARKDOWN_TABLE_INVALID"
    "Expected one simple Markdown table" []
  assert (∀ line ∈ lines, isBlank line = false) "MARKDOWN_TABLE_INVALID"
    "Markdown table must not contain blank rows" []
  let header ← parseLine (lines.getD 0 [])
  let separator ← parseLine (lines.getD 1 [])
  assert (separator.length = header.length) "MARKDOWN_TABLE_INVALID"
    "Markdown table separator width differs from header" []
  assert (∀ cell ∈ separator, isSeparator cell = true) "MARKDOWN_TABLE_INVALID"
    "Invalid Markdown table separator" []
  let body ← (lines.drop 2).mapM parseLine
  assert (∀ row ∈ body, row.length = header.length) "MARKDOWN_TABLE_INVALID"
    "Markdown table rows must have equal width" []
  let rows := header :: body
  assert ((rows.map List.length).sum ≤ OFFICE_LIMITS.cells) "INPUT_TOO_LARGE"
    "Markdown table cell count exceeds limit" []
  return ⟨rows, header.length⟩

/-! ## Tables of documents -/

/-- What a match of the pattern for paragraphs and tables holds, cells and texts being those that
`paragraphText` lets pass. -/
inductive Token
  | paragraph (style : Option Nat) (text : JsText)
  | table (rows : List (List JsText))

inductive Block
  | heading (level : Nat) (text : JsText)
  | paragraph (text : JsText)
  | table (rows : List (List JsText))
  deriving DecidableEq

structure Extraction where
  blocks : List Block
  textLength : Nat
  modelItems : Nat

/-- `safeText` on the text of a paragraph, for text without characters that XML forbids. -/
def paragraphText (text : JsText) : Except OfficeCoreError JsText := do
  assert (text.length ≤ OFFICE_LIMITS.modelTextChars) "INPUT_TOO_LARGE" "Text exceeds limit" []
  return text

/-- The counters of a table, row by row. -/
def countRows : Nat → Nat → List (List JsText) → Except OfficeCoreError (Nat × Nat)
  | textLength, modelItems, [] => .ok (textLength, modelItems)
  | textLength, modelItems, row :: rows => do
      assert (row.length ≤ OFFICE_LIMITS.tableColumns) "INPUT_TOO_LARGE"
        "DOCX table column count exceeds limit" []
      countRows (textLength + (row.map List.length).sum) (modelItems + row.length) rows

/-- What a match adds. -/
def addToken (st : Extraction) : Token → Except OfficeCoreError Extraction
  | .paragraph style text => do
      let text ← paragraphText text
      let blocks := match style with
        | some level => st.blocks ++ [.heading level text]
        | none => if text = [] then st.blocks else st.blocks ++ [.paragraph text]
      return { st with blocks, textLength := st.textLength + text.length }
  | .table rows => do
      let rows ← rows.mapM fun row => row.mapM paragraphText
      assert (rows.length ≤ OFFICE_LIMITS.tableRows) "INPUT_TOO_LARGE"
        "DOCX table row count exceeds limit" []
      let (textLength, modelItems) ← countRows st.textLength st.modelItems rows
      return ⟨st.blocks ++ [.table rows], textLength, modelItems⟩

/-- One round of the loop of `extractDocx`. -/
def extractToken (st : Extraction) (token : Token) : Except OfficeCoreError Extraction := do
  let st ← addToken st token
  assert (st.blocks.length ≤ OFFICE_LIMITS.blocks) "INPUT_TOO_LARGE"
    "DOCX block count exceeds limit" []
  assert (st.textLength ≤ OFFICE_LIMITS.xmlTextBytes) "INPUT_TOO_LARGE"
    "DOCX extracted text exceeds limit" []
  assert (st.modelItems ≤ OFFICE_LIMITS.cells) "INPUT_TOO_LARGE"
    "DOCX extracted item count exceeds limit" []
  return st

def extractBlocks (tokens : List Token) : Except OfficeCoreError (List Block) := do
  let st ← tokens.foldlM extractToken ⟨[], 0, 0⟩
  return st.blocks

/-- The number of columns of the widest row. -/
def widthOf (rows : List (List JsText)) : Nat := (rows.map List.length).foldr max 0

/-- The text of a table block. -/
def tableText (rows : List (List JsText)) : JsText :=
  let width := widthOf rows
  let rows := rows.map fun row => (pad width row).map (replaceUnit 124 [92, 124])
  [newline].intercalate ((withSeparator width rows).map line)

/-- The text of a block. -/
def blockText : Block → JsText
  | .heading level text => List.replicate level 35 ++ 32 :: text
  | .paragraph text => text
  | .table rows => if rows = [] then [] else tableText rows

def docxToMarkdown (tokens : List Token) : Except OfficeCoreError JsText := do
  let blocks ← extractBlocks tokens
  return [newline, newline].intercalate ((blocks.map blockText).filter (· ≠ []))

end Markdown

end Useful.Office
