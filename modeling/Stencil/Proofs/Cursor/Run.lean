import Stencil.Proofs.Cursor.Local
import Stencil.Proofs.Segment.Slice

/-!
# Runs of a cursor

A cursor set on a window that lies between characters stays between characters and in
its window, whatever it is asked. No operation faults and none goes back, only handing
on moves the start of the part being read, and an answer that says no, or that there
is no character, leaves the cursor as it was.
-/

set_option autoImplicit false

namespace Stencil

namespace Cursor

/-- A cursor between characters of its window, where what has been read and what is left of the
window follow each other. -/
structure Stands (source : Text) (window : Span) (cursor : Cursor) : Prop where
  source_eq : cursor.source = source
  stop_eq : cursor.stop = window.stop
  start_ge : window.start ≤ cursor.start
  start_le : cursor.start ≤ cursor.position
  position_le : cursor.position ≤ window.stop
  start_boundary : Boundary source cursor.start
  position_boundary : Boundary source cursor.position
  parts : ∃ part ahead, cursor.current = .ok part ∧ cursor.remaining = .ok ahead ∧
    Span.slice ⟨cursor.start, window.stop - cursor.start⟩ source = .ok (part ++ ahead)

structure Moves (op : Op) (cursor : Cursor) (reply : Reply) (next : Cursor) : Prop where
  forward : cursor.position ≤ next.position
  start_eq : op ≠ .resetStart → next.start = cursor.start
  unchanged : reply = .flag false ∨ reply = .char none → next = cursor

inductive Course (source : Text) (window : Span) :
    Cursor → List Op → List (Except Fault (Reply × Cursor)) → Prop
  | nil (cursor : Cursor) : Course source window cursor [] []
  | cons {cursor next : Cursor} {op : Op} {ops : List Op} {reply : Reply}
      {answers : List (Except Fault (Reply × Cursor))} (hm : Moves op cursor reply next)
      (hs : Stands source window next) (hr : Course source window next ops answers) :
      Course source window cursor (op :: ops) (.ok (reply, next) :: answers)

structure Parts (source : Text) (window : Span) (before part ahead after : Text) : Prop where
  spell : before ++ part ++ ahead ++ after = source
  start_le : window.start ≤ byteSize before
  stop_eq : byteSize before + byteSize part + byteSize ahead = window.stop

section

variable {source : Text} {window : Span} {before part ahead after : Text}

theorem Parts.stands (h : Parts source window before part ahead after) :
    Stands source window (ofParts before part ahead after) where
  source_eq := h.spell
  stop_eq := h.stop_eq
  start_ge := h.start_le
  start_le := by simp
  position_le := by
    rw [position_ofParts, ← h.stop_eq]
    omega
  start_boundary := ⟨before, part ++ ahead ++ after, by rw [← h.spell]; simp, rfl⟩
  position_boundary := ⟨before ++ part, ahead ++ after, by rw [← h.spell]; simp, by simp⟩
  parts := by
    refine ⟨part, ahead, current_ofParts .., remaining_ofParts .., ?_⟩
    apply Span.slice_eq_ok_iff.mpr
    refine ⟨before, after, ?_, ?_⟩
    · rw [← List.append_assoc, h.spell]
    · rw [← h.stop_eq, start_ofParts, byteSize_append, Span.mk.injEq]
      omega

theorem exists_parts_within {body : Text} (h : window.slice source = .ok body) :
    ∃ before after, within source window = ofParts before [] body after ∧
      Parts source window before [] body after := by
  obtain ⟨before, after, rfl, rfl⟩ := Span.slice_eq_ok_iff.mp h
  refine ⟨before, after, ?_, ?_, ?_, ?_⟩
  · simp [within, ofParts, Span.stop]
  · simp
  · exact Nat.le_refl _
  · simp [Span.stop]

theorem Parts.moveOver {s : Text} (h : Parts source window before part (s ++ ahead) after) :
    Parts source window before (part ++ s) ahead after where
  spell := by
    rw [← h.spell]
    simp
  start_le := h.start_le
  stop_eq := by
    rw [← h.stop_eq, byteSize_append, byteSize_append]
    omega

theorem Parts.resetStart (h : Parts source window before part ahead after) :
    Parts source window (before ++ part) [] ahead after where
  spell := by
    rw [← h.spell]
    simp
  start_le := by
    have := h.start_le
    rw [byteSize_append]
    omega
  stop_eq := by
    rw [← h.stop_eq, byteSize_append, byteSize_nil, Nat.add_zero]

theorem moves_refl (op : Op) (cursor : Cursor) (reply : Reply) : Moves op cursor reply cursor where
  forward := Nat.le_refl _
  start_eq := fun _ => rfl
  unchanged := fun _ => rfl

def Answers (source : Text) (window : Span) (before part ahead after : Text) (op : Op) : Prop :=
  ∃ reply before' part' ahead', (ofParts before part ahead after).step op =
      .ok (reply, ofParts before' part' ahead' after) ∧
    Moves op (ofParts before part ahead after) reply (ofParts before' part' ahead' after) ∧
    Parts source window before' part' ahead' after

theorem answers_stay {op : Op} (reply : Reply)
    (h : Parts source window before part ahead after)
    (hstep : (ofParts before part ahead after).step op =
      .ok (reply, ofParts before part ahead after)) :
    Answers source window before part ahead after op :=
  ⟨reply, before, part, ahead, hstep, moves_refl op _ reply, h⟩

theorem Local.answers {op : Op} {reply : Reply} {moved rest : Text}
    (hl : Local op part ahead reply moved rest) (h : Parts source window before part ahead after) :
    Answers source window before part ahead after op := by
  obtain ⟨rfl, hunmoved, hstep⟩ := hl
  refine ⟨reply, before, part ++ moved, rest, hstep before after, ⟨?_, fun _ => rfl, ?_⟩,
    h.moveOver⟩
  · simp
  · intro hsame
    rw [hunmoved hsame, List.append_nil, List.nil_append]

/-- No operation faults, and each leaves the cursor over parts of the source. -/
theorem answers_of_parts (h : Parts source window before part ahead after) (op : Op) :
    Answers source window before part ahead after op := by
  by_cases hl : op.IsLocal
  · obtain ⟨_, _, _, hlocal⟩ := exists_local hl part ahead
    exact hlocal.answers h
  · cases op with
    | resetStart =>
      refine ⟨.done, before ++ part, [], ahead, ?_, ⟨?_, ?_, ?_⟩, h.resetStart⟩
      · rw [step, resetStart_ofParts]
        rfl
      · simp
      · intro hne
        exact absurd rfl hne
      · simp
    | source => exact answers_stay _ h rfl
    | span =>
      apply answers_stay _ h
      rw [step, span_ofParts]
      rfl
    | _ => exact absurd trivial hl

/-- A run from parts of the source keeps to it. -/
theorem course_run (h : Parts source window before part ahead after) (ops : List Op) :
    Course source window (ofParts before part ahead after) ops
      ((ofParts before part ahead after).run ops) := by
  induction ops generalizing before part ahead with
  | nil => exact .nil _
  | cons op ops ih =>
    obtain ⟨reply, before', part', ahead', hstep, hmoves, hparts⟩ := answers_of_parts h op
    rw [run, hstep]
    exact .cons hmoves hparts.stands (ih hparts)

end

end Cursor

end Stencil
