import Stencil.Text.Quoted
import Stencil.Token

/-!
# Dumps

A dump lists the tokens of a template with their spans. Literal text is quoted;
an expression is shown in its canonical form, and below it are its items, each
indented, with the parts that it has.
-/

set_option autoImplicit false

namespace Stencil

def Span.dump (span : Span) : Text := decimal span.start ++ ['.', '.'] ++ decimal span.stop

def Item.dump (item : Item) : Text :=
  let part (label : String) (value : Text) := label.toList ++ quoted value
  let key := match item.key with
    | some key => part " key=" key
    | none => []
  let condition := match item.normalized with
    | some condition => part " condition=" condition
    | none => []
  part "  value=" item.value ++ key ++ condition ++ ['\n']

def Expression.dump (expression : Expression) : Text :=
  let kind := if expression.isKeyedSet then "keyed " else "list "
  kind.toList ++ expression.span.dump ++ ' ' :: expression.render ++ '\n'
    :: expression.items.flatMap Item.dump

def Token.dump : Token → Text
  | text t span => "text ".toList ++ span.dump ++ ' ' :: quoted t ++ ['\n']
  | expression e => e.dump

def dump (tokens : List Token) : Text := tokens.flatMap Token.dump

end Stencil
