import Stencil.Json
import Stencil.Token

/-!
# Tokens in JSON

Literal text is a string, an expression the array of its items. An item is an
object that leaves out what the item does not have. Spans are not written.
-/

set_option autoImplicit false

namespace Stencil

def Item.toJson (item : Item) : Json :=
  let field (name : String) (value : Text) := (name.toList, Json.string value)
  .object <|
    field "value" item.value
      :: (item.key.map (field "key")).toList
      ++ (item.condition.map (field "condition")).toList
      ++ (item.normalized.map (field "normalizedCondition")).toList

def Expression.toJson (expression : Expression) : Json :=
  .array (expression.items.map Item.toJson)

def Token.toJson : Token → Json
  | text t _ => .string t
  | expression e => e.toJson

def tokensJson (tokens : List Token) : Json := .array (tokens.map Token.toJson)

end Stencil
