import Stencil.Text.Blank

/-!
# Patterns

A pattern looks at the head of a text and answers how many characters it
matches there, if it matches at all. What it matches is therefore always a
beginning of the text.
-/

set_option autoImplicit false

namespace Stencil

abbrev Pattern := Text → Option Nat

namespace Pattern

def literal (word : Text) : Pattern := fun t => if word.isPrefixOf t then some word.length else none

def zeroOrMore (accepts : Char → Bool) : Pattern := fun t => some (t.takeWhile accepts).length

def oneOrMore (accepts : Char → Bool) : Pattern := fun t =>
  match t.takeWhile accepts with
  | [] => none
  | run => some run.length

def followedBy (first second : Pattern) : Pattern := fun t => do
  let m ← first t
  let n ← second (t.drop m)
  return m + n

def orElse (first second : Pattern) : Pattern := fun t => (first t).or (second t)

def atEnd : Pattern := fun t => if t.isEmpty then some 0 else none

def blanks : Pattern := oneOrMore isBlank

def conditionMarker : Pattern := blanks.followedBy ((literal ['i', 'f']).followedBy blanks)

end Pattern

end Stencil
