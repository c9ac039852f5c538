import ClusterTransition.Text.Blank
import ClusterTransition.Text.Numeral

/-! # Text tables

A table is laid out in columns with two spaces between them.  A column is as wide as its widest cell
has bytes, and a cell is filled up by spaces to as many characters.  Columns that hold nothing but
whole numbers are aligned to the right.
-/

namespace ClusterTransition
namespace Layout

/-- A column of a table. -/
structure Column where
  width : Nat
  alignsRight : Bool
  deriving DecidableEq, Repr

/-- Whether a cell is a whole number of 64 bits. -/
def isWhole (cell : String) : Bool := (Numeral.parseInt64? cell.toList).isSome

/-- The column with a header and cells. -/
def Column.ofCells (header : String) (cells : List String) : Column :=
  { width := (cells.map String.utf8ByteSize).foldl max header.utf8ByteSize
    alignsRight := !cells.isEmpty && cells.all isWhole }

/-- A cell, filled up to the width of its column. -/
def Column.fill (c : Column) (cell : String) : List Char :=
  let cs := cell.toList
  let blanks := List.replicate (c.width - cs.length) ' '
  if c.alignsRight then blanks ++ cs else cs ++ blanks

/-- A line of cells, without blanks at its end. -/
def line (columns : List Column) (cells : List String) : String :=
  String.ofList (trimEnd ([' ', ' '].intercalate (List.zipWith Column.fill columns cells))) ++ "\n"

/-- The columns of a table: the first cells of all rows under the first header, and so on. -/
def columns : (headers : List String) → (rows : List (List String)) → List Column
  | [], _ => []
  | h :: hs, rows =>
    Column.ofCells h (rows.filterMap List.head?) :: columns hs (rows.map List.tail)

/-- A table with a rule under its headers. -/
def table (headers : List String) (rows : List (List String)) : String :=
  let cs := columns headers rows
  let rule := cs.map fun c => String.ofList (List.replicate c.width '-')
  line cs headers ++ "  ".intercalate rule ++ "\n" ++ String.join (rows.map (line cs))

/-- A value, or a dash where there is none. -/
def orDash (value : Option String) : String := value.getD "-"

end Layout
end ClusterTransition
