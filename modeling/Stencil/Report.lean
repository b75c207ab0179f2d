import Stencil.Bracket
import Stencil.SyntaxError
import Stencil.Report.Label

/-!
# Reports

A report shows a syntax error to a reader: a title, the place, the source with a
label on the range in question, and advice. The offsets of the span are taken as
counts of characters, so the place is exact where all characters before it have
one byte. Where the range leaves the source, the title stands alone.

The words of a notice are the program's own. The rows around the label are laid out
by the rules assumed of the library that draws the reports, as the label itself is.
-/

set_option autoImplicit false

namespace Stencil

structure Notice where
  title : Text
  label : Text
  help : Text
  deriving DecidableEq, Repr

def Cause.notice : Cause → Notice
  | unmatchedBrace =>
    ⟨"unclosed expression".toList, "expression opened here".toList, "add a closing '\x7d'".toList⟩
  | unmatchedPair opener =>
    ⟨"unclosed '".toList ++ opener :: "' inside expression".toList,
      '\'' :: opener :: "' opened here".toList,
      "add a closing '".toList ++ (closer? opener).getD opener
        :: "' before the end of the item".toList⟩
  | mixedItems _ =>
    ⟨"illegal mix of plain list and hashes".toList, "some items have keys, some don't".toList,
      "give every item a `key: ` prefix, or none of them".toList⟩

namespace Report

def titleRow (notice : Notice) : Row :=
  [⟨.severity, "Error:".toList⟩, plain (' ' :: notice.title)]

def placeRow (filename : Text) (label : Label) : Row :=
  let place := ' ' :: filename ++ ':' :: decimal label.first.number ++ ':' :: decimal label.column
    ++ [' ']
  [plain (Label.spaces (label.margin + 2)), ⟨.frame, ['╭']⟩, ⟨.frame, ['─']⟩, ⟨.frame, ['[']⟩,
    plain place, ⟨.frame, [']']⟩]

def openingRow (label : Label) : Row :=
  [plain (Label.spaces (label.margin + 2)), ⟨.frame, ['│']⟩]

def spacerRow (label : Label) : Row := label.blankMargin ++ label.indent

def helpRows (notice : Notice) (label : Label) : List Row :=
  let margin := label.blankMargin ++ label.indent
  match notice.help.splitOn '\n' with
  | [] => []
  | line :: rest =>
    -- A line after the first begins under the words of the first.
    (margin ++ [⟨.hint, "Help".toList⟩, plain (':' :: ' ' :: line)])
      :: rest.map fun line => margin ++ [plain (Label.spaces 6 ++ line)]

def closingRow (label : Label) : Row :=
  [⟨.frame, List.replicate (label.margin + 2) '─' ++ ['╯']⟩]

def rows (error : SyntaxError) (filename source : Text) : List Row :=
  let notice := error.cause.notice
  titleRow notice ::
    match Label.on? source error.span.start error.span.stop notice.label with
    | none => []
    | some label =>
      placeRow filename label :: openingRow label :: label.draw
        ++ spacerRow label :: helpRows notice label ++ [closingRow label]

def render (palette : Palette) (error : SyntaxError) (filename source : Text) : Text :=
  paintRows palette (rows error filename source)

end Report

end Stencil
