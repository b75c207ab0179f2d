import Stencil.Token

/-!
# Summaries

A summary says how many expressions a template has, how many of them are keyed
sets, and whether plain substitution serves it.
-/

set_option autoImplicit false

namespace Stencil

structure Summary where
  expressions : Nat
  keyedSets : Nat
  extended : Bool
  deriving DecidableEq, Repr

namespace Summary

def ofTokens (tokens : List Token) : Summary where
  expressions := (Stencil.expressions tokens).length
  keyedSets := (Stencil.expressions tokens).countP Expression.isKeyedSet
  extended := requiresExtended tokens

def render (summary : Summary) : Text :=
  "expressions: ".toList ++ decimal summary.expressions
    ++ "\nkeyed sets: ".toList ++ decimal summary.keyedSets
    ++ "\nrequires extended handling: ".toList
    ++ (if summary.extended then "true\n" else "false\n").toList

end Summary

end Stencil
