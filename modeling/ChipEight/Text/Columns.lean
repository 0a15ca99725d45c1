/-
Names laid out in columns.

The names run down the columns.  There are as few rows as the width of the line allows, and
two spaces stand between columns.
-/
namespace ChipEight.Text.Columns

/-- The width of the columns if the names stand in `height` rows, column by column. -/
def widths (height : Nat) (names : List String) : List Nat :=
  (List.range ((names.length + height - 1) / height)).map fun column =>
    ((names.drop (height * column)).take height).foldl (fun w name => max w name.length) 0

/-- The width of a line whose columns have the given widths. -/
def lineWidth (widths : List Nat) : Nat :=
  widths.foldl (· + ·) (2 * (widths.length - 1))

/-- The least number of rows for which a line is no wider than `width`, and a row for each name
if there is none. -/
def height (width : Nat) (names : List String) : Nat :=
  ((List.range' 1 (names.length - 1)).find? fun h => lineWidth (widths h names) ≤ width).getD
    names.length

/-- `name` with blanks up to `width` characters. -/
def padded (width : Nat) (name : String) : String :=
  name ++ String.ofList (List.replicate (width - name.length) ' ')

/-- The rows of the layout with `height` rows. -/
def rows (height : Nat) (names : List String) : List String :=
  let widths := widths height names
  (List.range height).map fun row =>
    "  ".intercalate <| widths.zipIdx.filterMap fun (width, column) =>
      (names[row + height * column]?).map (padded width)

/-- The names in columns on lines of at most `width` characters. -/
def layout (width : Nat) (names : List String) : List String :=
  rows (height width names) names

end ChipEight.Text.Columns
