/-!
# Faults

A fault is a request that no text could satisfy: a range that ends before it
starts, a slice that leaves the text or splits a character, more taken off a
range than it holds, a text whose offsets do not fit a 32-bit word. A fault
lies with the caller; what is wrong with a template is a `SyntaxError`.
-/

set_option autoImplicit false

namespace Stencil

inductive Fault where
  | reversed (start stop : Nat)
  | unsliceable (start stop : Nat)
  | overdrawn (start stop amount : Nat)
  | oversized (size : Nat)
  deriving DecidableEq, Repr

end Stencil
