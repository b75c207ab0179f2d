import Stencil.Expression

/-!
# Tokens

A template is literal text with expressions in braces. Its tokens are the runs
of literal text, none of them empty, and the expressions between them, in order.
Quoted runs belong to the literal text, so a brace inside one opens nothing.
-/

set_option autoImplicit false

namespace Stencil

inductive Token where
  | text (text : Text) (span : Span)
  | expression (expression : Expression)
  deriving DecidableEq, Repr

namespace Token

def span : Token → Span
  | text _ span => span
  | expression e => e.span

def source : Token → Text
  | text t _ => t
  | expression e => e.source

def expression? : Token → Option Expression
  | text .. => none
  | expression e => some e

def literal (offset : Nat) (run : Text) : List Token :=
  if run.isEmpty then [] else [text run ⟨offset, byteSize run⟩]

def read (place : Place) (position : Nat) : List Lexeme → Outcome (List Token)
  | [] => do
    let (run, _) ← check (place.readTo position)
    return literal place.offset run
  | .unclosed opener _ :: _ => refuse .unmatchedBrace (.ofChar opener position)
  | .group _ group :: rest => do
    let (run, here) ← check (place.readTo position)
    let span := ⟨position, byteSize group⟩
    let body ← check (span.shrink 1)
    let e ← Expression.read here span body
    let (_, next) ← check (here.readTo span.stop)
    let others ← read next span.stop rest
    return literal place.offset run ++ expression e :: others
  | lexeme :: rest => read place (position + lexeme.size) rest

end Token

def tokenize (template : Text) : Outcome (List Token) := do
  let _ ← check (Span.ofText template)
  Token.read (Place.start template) 0 (Lexeme.read braceCloser? template)

def expressions (tokens : List Token) : List Expression := tokens.filterMap Token.expression?

def requiresExtended (tokens : List Token) : Bool := (expressions tokens).any Expression.isExtended

end Stencil
