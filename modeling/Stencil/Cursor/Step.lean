import Stencil.Cursor

/-!
# Runs of a cursor

The operations of a cursor as data: a run takes a list of them in order and
answers each with a reply and the cursor after it. A fault ends the run.
-/

set_option autoImplicit false

namespace Stencil

namespace Cursor

inductive Op where
  | peek
  | peekNth (n : Nat)
  | advance
  | skipToEnd
  | resetStart
  | current
  | currentTrimEndQuote
  | remaining
  | source
  | span
  | skipQuoted
  | skipToPair (opener closer : Char) (includeClose : Bool)
  | matchPrefix (pattern : Pattern) (consume : Bool)

inductive Reply where
  | done
  | char (c : Option Char)
  | text (t : Text)
  | span (span : Span)
  | flag (b : Bool)
  deriving DecidableEq, Repr

def step (cursor : Cursor) : Op → Except Fault (Reply × Cursor)
  | .peek => return (.char (← cursor.peek), cursor)
  | .peekNth n => return (.char (← cursor.peekNth n), cursor)
  | .advance => do
    let (c, next) ← cursor.advance
    return (.char c, next)
  | .skipToEnd => return (.done, cursor.skipToEnd)
  | .resetStart => return (.done, cursor.resetStart)
  | .current => return (.text (← cursor.current), cursor)
  | .currentTrimEndQuote => return (.text (← cursor.currentTrimEndQuote), cursor)
  | .remaining => return (.text (← cursor.remaining), cursor)
  | .source => return (.text cursor.source, cursor)
  | .span => return (.span (← cursor.span), cursor)
  | .skipQuoted => do
    let (b, next) ← cursor.skipQuoted
    return (.flag b, next)
  | .skipToPair opener closer includeClose => do
    let (b, next) ← cursor.skipToPair opener closer includeClose
    return (.flag b, next)
  | .matchPrefix pattern consume => do
    let (b, next) ← cursor.matchPrefix pattern consume
    return (.flag b, next)

def run (cursor : Cursor) : List Op → List (Except Fault (Reply × Cursor))
  | [] => []
  | op :: ops =>
    match cursor.step op with
    | .ok (reply, next) => .ok (reply, next) :: run next ops
    | .error fault => [.error fault]

end Cursor

end Stencil
