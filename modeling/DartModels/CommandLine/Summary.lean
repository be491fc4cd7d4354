import DartModels.Settings

/-!
# Summaries

After a run the models that were written are listed in a box.  Its right border is open to the
width of the longest row, and an empty run shows where entities were looked for.

* `Summary.lines`: the lines of the box.
* `Summary.width`: the number of characters between its borders.
-/

namespace DartModels

namespace CommandLine

/-- A model in a summary: the name of its entity and its file. -/
structure SummaryRow where
  name : String
  target : String
  deriving DecidableEq, Inhabited

/-- The size of a value: the characters of a text, the items of an array, the members of an
object. -/
def sizeOfValue (v : Json) : Except Error Nat :=
  match v with
  | .str s => .ok s.length
  | .arr items => .ok items.length
  | .obj members => .ok members.length
  | _ => wrongKind (.noLength v.typeName)

namespace Summary

/-- What the width leaves for the fixed part of a line. -/
def margin : Nat := 10

/-- The least size of the longest row. -/
def leastRow : Nat := 20

/-- The number of characters between the borders of a box with rows. -/
def width (rows : List SummaryRow) : Nat :=
  (rows.map fun r => r.name.length + r.target.length).foldl max leastRow + margin

/-- The number of characters between the borders of a box without rows. -/
def emptyWidth (cwd ext : Json) : Except Error Nat := do
  let c ← sizeOfValue cwd
  let e ← sizeOfValue ext
  return max c e + margin

/-- A text filled up to a width; a longer one stays as it is. -/
def padded (text : String) (fill : Char) (width : Nat) : String :=
  text.pushn fill (width - text.length)

/-- A line of a box between its left and its right border. -/
def line (left right : Char) (text : String) (fill : Char) (width : Nat) : String :=
  String.singleton left ++ (padded text fill width).push right

/-- A border line. -/
def rule (left right : Char) (width : Nat) : String := line left right "" '─' width

/-- The box that lists the models. -/
def listing (rows : List SummaryRow) (width : Nat) : List String :=
  [rule '│' '┐' width, line '│' '│' s!" Generated {rows.length} models:" ' ' width,
    rule '├' '┤' width] ++
  rows.map (fun r => line '├' '│' s!" » {r.name} ({r.target})" ' ' width) ++
  [rule '└' '┘' width]

/-- The box of a run that found nothing. -/
def nothingFound (cwd ext : Json) (width : Nat) : List String :=
  [rule '│' '┐' width,
    line '│' '│' " No entities found, check parser \"cwd\" and \"ext\"." ' ' width,
    line '├' '│' s!" » cwd: {cwd.text}" ' ' width,
    line '├' '│' s!" » ext: {ext.text}" ' ' width,
    rule '└' '┘' width]

/-- The lines of the box for models found in `cwd` by the ending `ext`. -/
def lines (rows : List SummaryRow) (cwd ext : Json) : Except Error (List String) :=
  if rows.isEmpty then (emptyWidth cwd ext).map (nothingFound cwd ext)
  else .ok (listing rows (width rows))

end Summary

end CommandLine

end DartModels
