import Stencil.Item

/-!
# Expressions

An expression is the list of its items. Either all items have keys, and it is a
keyed set, or none has, and it is a plain list; a mix is refused. An expression
is read from a body and remembers the span it was written on, braces included.
-/

set_option autoImplicit false

namespace Stencil

def isKeyedSet (items : List Item) : Bool := !items.isEmpty && items.all Item.isKeyed

def isMixed (items : List Item) : Bool := items.any Item.isKeyed && !items.all Item.isKeyed

structure Expression where
  items : List Item
  span : Span
  source : Text
  deriving DecidableEq, Repr

namespace Expression

def isKeyedSet (expression : Expression) : Bool := Stencil.isKeyedSet expression.items

def isExtended (expression : Expression) : Bool := expression.items.any Item.isExtended

def render (expression : Expression) : Text :=
  '{' :: [',', ' '].intercalate (expression.items.map Item.render) ++ ['}']

def read (source : Place) (span body : Span) : Outcome Expression := do
  let segments ← Segment.splitWithin source body
  let items ← segments.mapM Item.read
  let text ← check (source.slice span)
  if isMixed items then
    refuse (.mixedItems text) span
  return ⟨items, span, text⟩

def isBraced (text : Text) : Bool :=
  match Lexeme.read braceCloser? text with
  | [.group _ _] => true
  | _ => false

def parse (text : Text) : Outcome Expression := do
  let whole ← check (Span.ofText text)
  let body ← if isBraced text then check (whole.shrink 1) else pure whole
  read (Place.start text) whole body

end Expression

end Stencil
