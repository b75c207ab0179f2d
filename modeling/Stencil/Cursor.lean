import Stencil.Bracket
import Stencil.Pattern
import Stencil.Place

/-!
# Cursors

A cursor reads a window of a source step by step. It keeps where it stands and
where the part began that it has read but not handed on. All offsets count from
the start of the source, whatever the window. A cursor may be set on any
window; a step that has to read faults if the window does not lie on characters
of the source.
-/

set_option autoImplicit false

namespace Stencil

structure Cursor where
  source : Text
  start : Nat
  position : Nat
  stop : Nat
  deriving DecidableEq, Repr

namespace Cursor

def within (source : Text) (window : Span) : Cursor :=
  ⟨source, window.start, window.start, window.stop⟩

def ofText (source : Text) : Except Fault Cursor := return within source (← Span.ofText source)

def isAtEnd (cursor : Cursor) : Bool := cursor.stop ≤ cursor.position

def remaining (cursor : Cursor) : Except Fault Text := do
  (← Span.between cursor.position cursor.stop).slice cursor.source

def span (cursor : Cursor) : Except Fault Span := Span.between cursor.start cursor.position

def current (cursor : Cursor) : Except Fault Text := do (← cursor.span).slice cursor.source

def currentTrimEndQuote (cursor : Cursor) : Except Fault Text := do
  let part ← cursor.current
  match part with
  | first :: _ :: _ =>
    return if isQuote first && part.getLast? == some first then part.dropLast else part
  | _ => return part

def peekNth (cursor : Cursor) (n : Nat) : Except Fault (Option Char) :=
  return (← cursor.remaining)[n]?

def peek (cursor : Cursor) : Except Fault (Option Char) := cursor.peekNth 0

def moveOver (cursor : Cursor) (text : Text) : Cursor :=
  { cursor with position := cursor.position + byteSize text }

def advance (cursor : Cursor) : Except Fault (Option Char × Cursor) := do
  match ← cursor.peek with
  | some c => return (some c, cursor.moveOver [c])
  | none => return (none, cursor)

def skipToEnd (cursor : Cursor) : Cursor := { cursor with position := cursor.stop }

def resetStart (cursor : Cursor) : Cursor := { cursor with start := cursor.position }

def matchPrefix (cursor : Cursor) (pattern : Pattern) (consume : Bool) :
    Except Fault (Bool × Cursor) := do
  let ahead ← cursor.remaining
  match pattern ahead with
  | some n => return (true, if consume then cursor.moveOver (ahead.take n) else cursor)
  | none => return (false, cursor)

def skipToPair (cursor : Cursor) (opener closer : Char) (includeClose : Bool) :
    Except Fault (Bool × Cursor) := do
  match ← cursor.remaining with
  | [] => return (false, cursor)
  | c :: rest =>
    if c = opener then
      match splitGroup? opener closer 0 rest with
      | some (s, _) =>
        return (true, cursor.moveOver (c :: if includeClose then s else s.dropLast))
      | none => return (false, cursor)
    else return (false, cursor)

def skipQuoted (cursor : Cursor) : Except Fault (Bool × Cursor) := do
  match ← cursor.remaining with
  | [] => return (false, cursor)
  | c :: rest =>
    if isQuote c then return (true, cursor.moveOver (c :: (splitQuote c rest).1))
    else return (false, cursor)

end Cursor

end Stencil
