import Stencil.Span

/-!
# Syntax errors

A syntax error is what is wrong with a template: its cause and the span it is
about. Reading a template fails with a syntax error or, where the caller asked
for what cannot be, with a fault.
-/

set_option autoImplicit false

namespace Stencil

inductive Cause where
  | unmatchedBrace
  | unmatchedPair (opener : Char)
  | mixedItems (expression : Text)
  deriving DecidableEq, Repr

structure SyntaxError where
  cause : Cause
  span : Span
  deriving DecidableEq, Repr

namespace SyntaxError

def message (error : SyntaxError) : Text :=
  match error.cause with
  | .unmatchedBrace =>
    "invalid expression: unable to find `\x7d` for opening brace at position ".toList
      ++ decimal error.span.start
  | .unmatchedPair opener =>
    "unable to find closing brace for character `".toList ++ opener
      :: "` at position ".toList ++ decimal error.span.start
  | .mixedItems expression =>
    "illegal mix of plain list and hashes in `".toList ++ expression
      ++ "` at offset ".toList ++ decimal error.span.start

end SyntaxError

inductive Failure where
  | refused (error : SyntaxError)
  | fault (fault : Fault)
  deriving DecidableEq, Repr

abbrev Outcome (α : Type) := Except Failure α

def refuse {α : Type} (cause : Cause) (span : Span) : Outcome α :=
  .error (.refused ⟨cause, span⟩)

def check {α : Type} : Except Fault α → Outcome α
  | .ok a => .ok a
  | .error fault => .error (.fault fault)

@[simp] theorem check_ok {α : Type} (a : α) : check (.ok a) = .ok a := rfl

end Stencil
