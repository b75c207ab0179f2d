import Stencil.Text.Blank
import Stencil.Lexeme
import Stencil.Place
import Stencil.SyntaxError

/-!
# Segments

The body of an expression is cut at the commas that stand outside all bracket
groups and quoted runs. A segment is the trimmed text between two such cuts,
with its span in the whole source. Blank pieces are dropped, and an opener
without its closer refuses the body.
-/

set_option autoImplicit false

namespace Stencil

structure Segment where
  text : Text
  span : Span
  deriving DecidableEq, Repr

namespace Segment

def ofPiece (offset : Nat) (piece : Text) : List Segment :=
  let text := trim piece
  if text.isEmpty then [] else [⟨text, ⟨offset + byteSize (leadingBlanks piece), byteSize text⟩⟩]

def cut (place : Place) (position : Nat) : List Lexeme → Outcome (List Segment)
  | [] => do
    let (piece, _) ← check (place.readTo position)
    return ofPiece place.offset piece
  | .unclosed opener _ :: _ => refuse (.unmatchedPair opener) (.ofChar opener position)
  | .single ',' :: rest => do
    let (piece, comma) ← check (place.readTo position)
    let (_, next) ← check (comma.readTo (position + 1))
    let others ← cut next (position + 1) rest
    return ofPiece place.offset piece ++ others
  | lexeme :: rest => cut place (position + lexeme.size) rest

def splitWithin (source : Place) (window : Span) : Outcome (List Segment) := do
  let body ← check (source.slice window)
  cut ⟨window.start, body⟩ window.start (Lexeme.read closer? body)

def split (text : Text) : Outcome (List Segment) := do
  splitWithin (Place.start text) (← check (Span.ofText text))

end Segment

end Stencil
