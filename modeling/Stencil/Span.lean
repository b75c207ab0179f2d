import Stencil.Text.Basic
import Stencil.Fault

/-!
# Spans

A span is a half-open range of byte offsets, kept as its start and its length,
so that none ends before it starts. It is a pair of numbers and need not lie in
any text.
-/

set_option autoImplicit false

namespace Stencil

structure Span where
  start : Nat
  length : Nat
  deriving DecidableEq, Repr

/-- Offsets are 32-bit words, so a text has fewer bytes than this. -/
def offsetLimit : Nat := 4294967296

namespace Span

def stop (span : Span) : Nat := span.start + span.length

def isEmpty (span : Span) : Bool := span.length == 0

def between (start stop : Nat) : Except Fault Span :=
  if start ≤ stop then .ok ⟨start, stop - start⟩ else .error (.reversed start stop)

theorem between_add (start length : Nat) : between start (start + length) = .ok ⟨start, length⟩ := by
  simp [between]

def ofText (text : Text) : Except Fault Span :=
  if byteSize text < offsetLimit then .ok ⟨0, byteSize text⟩ else .error (.oversized (byteSize text))

def ofChar (c : Char) (start : Nat) : Span := ⟨start, c.utf8Size⟩

def shrink (span : Span) (amount : Nat) : Except Fault Span :=
  if 2 * amount ≤ span.length then .ok ⟨span.start + amount, span.length - 2 * amount⟩
  else .error (.overdrawn span.start span.stop amount)

end Span

end Stencil
