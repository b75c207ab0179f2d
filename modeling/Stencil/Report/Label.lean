import Stencil.Report.Line
import Stencil.Report.Paint

/-!
# Labels

A label marks a range of characters in a source and says what is there. It is
drawn in the margin left of the source: on one line as a bar under the range
with an arm at its middle, across lines as a bracket from the first line to the
last. The margin is as wide as the greatest line number.

The program sets a range and a message and leaves the drawing to a library (ariadne
0.6). How the range becomes lines and columns, and every row that is drawn, are rules
assumed of that library, as its output shows them.
-/

set_option autoImplicit false

namespace Stencil

structure Label where
  source : Text
  start : Nat
  stop : Nat
  message : Text
  first : Line
  last : Line
  deriving DecidableEq, Repr

namespace Label

def on? (source : Text) (start stop : Nat) (message : Text) : Option Label := do
  let first ← lineAt? source start
  let last ← if start < stop then lineAt? source (stop - 1) else some first
  return ⟨source, start, stop, message, first, last⟩

def spaces (n : Nat) : Text := List.replicate n ' '

def column (label : Label) : Nat := label.start - label.first.start + 1

def margin (label : Label) : Nat := (decimal label.last.number).length

def covers (label : Label) (offset : Nat) : Bool := label.start ≤ offset && offset < label.stop

def gutter (label : Label) (edge : Char) : Row :=
  [plain [' '], ⟨.gutter, spaces (label.margin + 1) ++ [edge]⟩, plain [' ']]

def blankMargin (label : Label) : Row := label.gutter '│'

def lineMargin (label : Label) (line : Line) : Row :=
  let number := decimal line.number
  [plain [' '], ⟨.frame, spaces (label.margin - number.length) ++ number ++ [' ', '│']⟩,
    plain [' ']]

def lineText (label : Label) (line : Line) : Row :=
  line.shown.zipIdx.flatMap fun (c, i) =>
    scatter (if label.covers (line.start + i) then .label else .context) (Line.showChar i c)

def cell (width : Nat) (head fill : Char) : Text :=
  (head :: List.replicate (width - 1) fill).take width

def cells (line : Line) (count : Nat) (draw : Nat → Option (Char × Char)) : Row :=
  (line.widths count).zipIdx.flatMap fun (width, i) =>
    match draw i with
    | some (head, fill) => scatter .label (cell width head fill)
    | none => [plain (spaces width)]

def middle (label : Label) : Nat :=
  max ((label.start + label.stop) / 2) label.start - label.first.start

def reach (label : Label) : Nat := label.stop - label.first.start + 2

def bar (label : Label) : Row :=
  cells label.first label.reach fun i =>
    let covered := label.covers (label.first.start + i)
    if i = label.middle then some (if covered then ('┬', '─') else ('│', ' '))
    else if covered then some ('─', '─') else none

def arm (label : Label) : Row :=
  cells label.first label.reach fun i =>
    if i < label.middle then none
    else if i = label.middle then some ('╰', '─') else some ('─', '─')

def said (label : Label) : Row := [plain (' ' :: label.message)]

def drawLine (label : Label) : List Row :=
  -- A range that leaves its line is not shown.
  if label.first.stop < label.stop then [label.blankMargin]
  else
    [label.lineMargin label.first ++ label.lineText label.first,
      label.blankMargin ++ label.bar,
      label.blankMargin ++ label.arm ++ label.said]

def elision (label : Label) : Row :=
  label.gutter '┆' ++ scatter .label ['┆'] ++ [plain (spaces 3)]

def drawLines (label : Label) : List Row :=
  -- Of a range that leaves its last line only the first line is shown.
  let cut := label.last.stop < label.stop
  let under := label.last.text.length + 2
  let opening := label.lineMargin label.first ++ scatter .label "╭─▶ ".toList
    ++ label.lineText label.first
  let elided := if cut || label.first.number + 1 < label.last.number then [label.elision] else []
  let closing :=
    if cut then []
    else
      [label.lineMargin label.last ++ scatter .label "├─▶ ".toList
        ++ label.lineText label.last,
        label.blankMargin ++ scatter .label ['│'] ++ [plain (spaces 3)]
          ++ cells label.last under fun _ => none,
        label.blankMargin ++ scatter .label "╰───".toList
          ++ cells label.last under (fun _ => some ('─', '─')) ++ label.said]
  opening :: elided ++ closing

def draw (label : Label) : List Row :=
  if label.first.number = label.last.number then label.drawLine else label.drawLines

def indent (label : Label) : Row :=
  if label.first.number = label.last.number then []
  -- A bracket that begins the second line goes on past its end.
  else if label.first.number = 2 && label.start = label.first.start then
    scatter .label ['│'] ++ [plain (spaces 3)]
  else [plain (spaces 4)]

end Label

end Stencil
