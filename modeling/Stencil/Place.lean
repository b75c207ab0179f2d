import Stencil.Span

/-!
# Places in a source

A place is an offset in a source together with what stands from there on.
Reading from a place to a later offset gives the text between them and the place
there; it faults if the offset lies before the place, inside a character or past
the end. A source is read piece by piece in this way, and every piece that is
kept is one that such a reading gave.
-/

set_option autoImplicit false

namespace Stencil

structure Place where
  offset : Nat
  ahead : Text
  deriving DecidableEq, Repr

namespace Place

def start (source : Text) : Place := ⟨0, source⟩

def readTo (place : Place) (stop : Nat) : Except Fault (Text × Place) := do
  let span ← Span.between place.offset stop
  match splitBytes? span.length place.ahead with
  | some (run, rest) => return (run, ⟨stop, rest⟩)
  | none => throw (.unsliceable place.offset stop)

theorem readTo_append (offset : Nat) (s t : Text) :
    readTo ⟨offset, s ++ t⟩ (offset + byteSize s) = .ok (s, ⟨offset + byteSize s, t⟩) := by
  simp [readTo, Span.between_add, splitBytes?_append, bind, Except.bind, pure, Except.pure]

def slice (place : Place) (span : Span) : Except Fault Text := do
  let (_, first) ← place.readTo span.start
  let (run, _) ← first.readTo span.stop
  return run

theorem slice_append (offset : Nat) (s t u : Text) :
    slice ⟨offset, s ++ t ++ u⟩ ⟨offset + byteSize s, byteSize t⟩ = .ok t := by
  rw [slice, List.append_assoc, readTo_append]
  simp only [Span.stop, bind, Except.bind, readTo_append]
  rfl

end Place

def Span.slice (span : Span) (source : Text) : Except Fault Text := (Place.start source).slice span

end Stencil
