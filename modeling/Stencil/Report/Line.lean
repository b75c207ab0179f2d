import Stencil.Text.Blank
import Stencil.Text.Width

/-!
# Lines of a source

A line ends with its terminator, which belongs to it. Lines are counted from
one, and a line knows how many characters precede it. On a terminal a line is
shown without the blanks at its end: a tab fills the cells up to the next
multiple of four, any other blank fills one cell.

All of this is assumed of the library that draws the reports (ariadne 0.6), as its
output shows it. None of it is the program's own.
-/

set_option autoImplicit false

namespace Stencil

structure Line where
  number : Nat
  start : Nat
  text : Text
  deriving DecidableEq, Repr

def isTerminator (c : Char) : Bool :=
  ['\n', '\r', '\x0b', '\x0c', '\u0085', '\u2028', '\u2029'].contains c

def consLine (c : Char) : List Text → List Text
  | [] => [[c]]
  | line :: lines => (c :: line) :: lines

def splitLines : Text → List Text
  | [] => []
  | '\r' :: '\n' :: rest => ['\r', '\n'] :: splitLines rest
  | c :: rest => if isTerminator c then [c] :: splitLines rest else consLine c (splitLines rest)

theorem flatten_consLine (c : Char) (lines : List Text) :
    (consLine c lines).flatten = c :: lines.flatten := by
  cases lines <;> simp [consLine]

theorem flatten_splitLines (t : Text) : (splitLines t).flatten = t := by
  fun_induction splitLines t with
  | case1 => rfl
  | case2 rest ih => simp [ih]
  | case3 c rest _ _ ih => simp [ih]
  | case4 c rest _ _ ih => rw [flatten_consLine, ih]

def numberLines (number start : Nat) : List Text → List Line
  | [] => []
  | text :: rest => ⟨number, start, text⟩ :: numberLines (number + 1) (start + text.length) rest

def linesOf (source : Text) : List Line :=
  if source.isEmpty then [⟨1, 0, []⟩] else numberLines 1 0 (splitLines source)

def lineAt? (source : Text) (offset : Nat) : Option Line :=
  -- The end of the source belongs to its last line.
  if offset ≤ source.length then ((linesOf source).filter (·.start ≤ offset)).getLast? else none

namespace Line

def stop (line : Line) : Nat := line.start + line.text.length

def shown (line : Line) : Text := trimEnd line.text

def tabWidth (index : Nat) : Nat := (index / 4 + 1) * 4 - index

def showChar (index : Nat) (c : Char) : Text :=
  if c = '\t' then List.replicate (tabWidth index) ' '
  else if isBlank c then [' ']
  else [c]

def charWidth (index : Nat) (c : Char) : Nat :=
  if c = '\t' then tabWidth index
  else if isBlank c then 1
  else cellWidth c

def widths (line : Line) (count : Nat) : List Nat :=
  -- Where nothing is shown, an index has one cell.
  let shown := line.shown.zipIdx.map fun (c, i) => charWidth i c
  (shown ++ List.replicate (count - shown.length) 1).take count

end Line

end Stencil
