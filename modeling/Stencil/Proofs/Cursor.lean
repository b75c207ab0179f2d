import Stencil.Cursor

/-!
# Where a cursor stands

A cursor between characters parts its source in four: what is before the part being
read, the part, what is left of the window, and what is after the window. Reading
gives these texts, and a move carries text from what is left to the part being read.
-/

set_option autoImplicit false

namespace Stencil

namespace Cursor

/-- The cursor over four texts: those before the part being read, in it, ahead of the cursor in its
window, and after the window. -/
def ofParts (before part ahead after : Text) : Cursor where
  source := before ++ part ++ ahead ++ after
  start := byteSize before
  position := byteSize before + byteSize part
  stop := byteSize before + byteSize part + byteSize ahead

section

variable (before part ahead after : Text)

@[simp] theorem position_ofParts :
    (ofParts before part ahead after).position = byteSize before + byteSize part := rfl

@[simp] theorem start_ofParts : (ofParts before part ahead after).start = byteSize before := rfl

@[simp] theorem span_ofParts :
    (ofParts before part ahead after).span = .ok ⟨byteSize before, byteSize part⟩ :=
  Span.between_add _ _

@[simp] theorem remaining_ofParts : (ofParts before part ahead after).remaining = .ok ahead := by
  have h := Place.slice_append 0 (before ++ part) ahead after
  rw [Nat.zero_add, byteSize_append] at h
  rw [remaining, ofParts, Span.between_add]
  exact h

@[simp] theorem current_ofParts : (ofParts before part ahead after).current = .ok part := by
  have h := Place.slice_append 0 before part (ahead ++ after)
  rw [Nat.zero_add, ← List.append_assoc] at h
  rw [current, span_ofParts]
  exact h

@[simp] theorem peekNth_ofParts (n : Nat) :
    (ofParts before part ahead after).peekNth n = .ok ahead[n]? := by
  rw [peekNth, remaining_ofParts]
  rfl

@[simp] theorem peek_ofParts : (ofParts before part ahead after).peek = .ok ahead.head? := by
  rw [peek, peekNth_ofParts, List.head?_eq_getElem?]

@[simp] theorem isAtEnd_ofParts : (ofParts before part ahead after).isAtEnd = ahead.isEmpty := by
  cases ahead with
  | nil => simp [isAtEnd, ofParts]
  | cons c ahead =>
    have hc := c.utf8Size_pos
    rw [isAtEnd, List.isEmpty_cons]
    refine decide_eq_false ?_
    simp only [ofParts, byteSize_cons]
    omega

@[simp] theorem moveOver_ofParts (s : Text) :
    (ofParts before part (s ++ ahead) after).moveOver s =
      ofParts before (part ++ s) ahead after := by
  simp [moveOver, ofParts, Nat.add_assoc]

@[simp] theorem resetStart_ofParts :
    (ofParts before part ahead after).resetStart = ofParts (before ++ part) [] ahead after := by
  simp [resetStart, ofParts]

@[simp] theorem skipToEnd_ofParts :
    (ofParts before part ahead after).skipToEnd = ofParts before (part ++ ahead) [] after := by
  simp [skipToEnd, ofParts, Nat.add_assoc]

end

end Cursor

end Stencil
