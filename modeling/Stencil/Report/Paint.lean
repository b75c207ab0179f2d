import Stencil.Text.Basic

/-!
# Painted text

A row of a report is a list of pieces, each in a tone. A palette decides which
tones have a colour, and painting puts the colour around each piece that has
one. Without colours a row is the texts of its pieces.

The program's own are the red of a label and the order of its calls: it adds the label
first and turns the colours off afterwards. The codes of the other tones are assumed of
the library that draws the reports (ariadne 0.6), and so is `Palette.labels`: a label
has its colour settled when it is added, everything else when the report is written.
-/

set_option autoImplicit false

namespace Stencil

inductive Tone where
  | plain
  | severity
  | label
  | context
  | frame
  | gutter
  | hint
  deriving DecidableEq, Repr

structure Piece where
  tone : Tone
  text : Text
  deriving DecidableEq, Repr

abbrev Row := List Piece

inductive Palette where
  | none
  | labels
  | full
  deriving DecidableEq, Repr

def plain (text : Text) : Piece := ⟨.plain, text⟩

def scatter (tone : Tone) (text : Text) : Row := text.map fun c => ⟨tone, [c]⟩

def Tone.code : Tone → Option Text
  | plain => none
  | severity => some "31".toList
  | label => some "31".toList
  | context => some "38;5;249".toList
  | frame => some "38;5;246".toList
  | gutter => some "38;5;240".toList
  | hint => some "38;5;115".toList

def Palette.code (palette : Palette) (tone : Tone) : Option Text :=
  match palette with
  | none => Option.none
  | labels => if tone = .label then tone.code else Option.none
  | full => tone.code

def Piece.paint (palette : Palette) (piece : Piece) : Text :=
  match palette.code piece.tone with
  | some code => '\x1b' :: '[' :: code ++ 'm' :: piece.text ++ "\x1b[0m".toList
  | none => piece.text

def Row.paint (palette : Palette) (row : Row) : Text := row.flatMap (Piece.paint palette)

@[simp] theorem Row.paint_append (palette : Palette) (s t : Row) :
    Row.paint palette (s ++ t) = Row.paint palette s ++ Row.paint palette t := List.flatMap_append

theorem Row.paint_none (row : Row) : Row.paint .none row = row.flatMap Piece.text := rfl

def paintRows (palette : Palette) (rows : List Row) : Text :=
  rows.flatMap fun row => row.paint palette ++ ['\n']

end Stencil
