import Stencil.Proofs.Cursor.Run
import Stencil.Proofs.Word

/-!
# Runs of a cursor in words

The operations of a cursor with the offsets as a machine has them: sums have to fit a
word, and nothing is taken from less. Over a source whose size is a word, a run in
words is the run in numbers, so none of its operations faults, and after each of them
the cursor is in its window between characters.
-/

set_option autoImplicit false

namespace Stencil.Word

open Cursor (ofParts Op Reply Parts Stands Course)

def currentTrimEndQuote (cursor : Cursor) : Except Fault Text := do
  let part ← cursor.current
  match part with
  | first :: _ :: _ =>
    if isQuote first && part.getLast? == some first then
      Span.slice ⟨0, ← sub (byteSize part) first.utf8Size⟩ part
    else return part
  | _ => return part

def step (cursor : Cursor) : Op → Except Fault (Reply × Cursor)
  | .advance => do
    let (c, next) ← advance cursor
    return (.char c, next)
  | .currentTrimEndQuote => return (.text (← currentTrimEndQuote cursor), cursor)
  | .skipQuoted => do
    let (b, next) ← skipQuoted cursor
    return (.flag b, next)
  | .skipToPair opener closer includeClose => do
    let (b, next) ← skipToPair cursor opener closer includeClose
    return (.flag b, next)
  | .matchPrefix pattern consume => do
    let (b, next) ← matchPrefix cursor pattern consume
    return (.flag b, next)
  | op => cursor.step op

def run (cursor : Cursor) : List Op → List (Except Fault (Reply × Cursor))
  | [] => []
  | op :: ops =>
    match step cursor op with
    | .ok (reply, next) => .ok (reply, next) :: run next ops
    | .error fault => [.error fault]

section

variable {source : Text} {window : Span} {before part ahead after : Text}

theorem currentTrimEndQuote_eq : currentTrimEndQuote (ofParts before part ahead after) =
    (ofParts before part ahead after).currentTrimEndQuote := by
  rw [currentTrimEndQuote, Cursor.currentTrimEndQuote, Cursor.current_ofParts]
  rcases part with _ | ⟨first, _ | ⟨second, rest⟩⟩
  · rfl
  · rfl
  simp only [ok_bind]
  split
  next h =>
    obtain ⟨_, hlast⟩ : isQuote first = true ∧ (first :: second :: rest).getLast? = some first := by
      simpa using h
    -- What is in front of the last quote is a slice of the part from its start.
    have hinit := List.dropLast_append_getLast? first hlast
    have hslice := Place.slice_append 0 [] (first :: second :: rest).dropLast [first]
    have hsize := congrArg byteSize hinit
    rw [List.nil_append, hinit, byteSize_nil] at hslice
    rw [byteSize_append, byteSize_cons, byteSize_nil, Nat.add_zero] at hsize
    rw [sub_of_le (by omega), ok_bind, ← hsize, Nat.add_sub_cancel]
    exact hslice
  next => rfl

/-- On a source whose size is a word, an operation in words is the one in numbers. -/
theorem step_eq (h : Parts source window before part ahead after)
    (hs : byteSize source < offsetLimit) (op : Op) :
    step (ofParts before part ahead after) op = (ofParts before part ahead after).step op := by
  rw [← h.spell] at hs
  cases op with
  | advance => rw [step, advance_eq hs, Cursor.step]
  | currentTrimEndQuote => rw [step, currentTrimEndQuote_eq, Cursor.step]
  | skipQuoted => rw [step, skipQuoted_eq hs, Cursor.step]
  | skipToPair opener closer includeClose => rw [step, skipToPair_eq hs, Cursor.step]
  | matchPrefix pattern consume => rw [step, matchPrefix_eq hs, Cursor.step]
  | _ => rfl

theorem run_eq (h : Parts source window before part ahead after)
    (hs : byteSize source < offsetLimit) (ops : List Op) :
    run (ofParts before part ahead after) ops = (ofParts before part ahead after).run ops := by
  induction ops generalizing before part ahead with
  | nil => rfl
  | cons op ops ih =>
    obtain ⟨reply, before', part', ahead', hstep, _, hparts⟩ := Cursor.answers_of_parts h op
    rw [run, Cursor.run, step_eq h hs op, hstep]
    exact congrArg _ (ih hparts)

end

/-- A cursor that is set on a window between characters of a source, whose size is a word, can be
asked anything in any order. -/
theorem course_of_window {source : Text} {window : Span} {body : Text}
    (hs : byteSize source < offsetLimit) (hw : window.slice source = .ok body) (ops : List Op) :
    within source window = .ok (.within source window) ∧
      Stands source window (.within source window) ∧
      run (.within source window) ops = (Cursor.within source window).run ops ∧
      Course source window (.within source window) ops (run (.within source window) ops) := by
  obtain ⟨before, after, hcursor, hparts⟩ := Cursor.exists_parts_within hw
  have hwindow : window.stop ≤ byteSize source := by
    rw [← hparts.spell, ← hparts.stop_eq]
    simp only [byteSize_append]
    omega
  refine ⟨if_pos hwindow, ?_⟩
  rw [hcursor, run_eq hparts hs]
  exact ⟨hparts.stands, rfl, Cursor.course_run hparts ops⟩

theorem course_of_window_open_quote :
    byteSize "é\x7bö'\x7d' if x".toList < offsetLimit ∧
    Span.slice ⟨2, 10⟩ "é\x7bö'\x7d' if x".toList = .ok "\x7bö'\x7d' if ".toList ∧
    Course "é\x7bö'\x7d' if x".toList ⟨2, 10⟩ (.within "é\x7bö'\x7d' if x".toList ⟨2, 10⟩)
      [.skipToPair '{' '{' true, .skipToPair '{' '}' false, .matchPrefix .conditionMarker true,
        .resetStart, .advance, .skipQuoted, .advance, .currentTrimEndQuote]
      [.ok (.flag false, ⟨"é\x7bö'\x7d' if x".toList, 2, 2, 12⟩),
        .ok (.flag true, ⟨"é\x7bö'\x7d' if x".toList, 2, 6, 12⟩),
        .ok (.flag false, ⟨"é\x7bö'\x7d' if x".toList, 2, 6, 12⟩),
        .ok (.done, ⟨"é\x7bö'\x7d' if x".toList, 6, 6, 12⟩),
        .ok (.char (some '}'), ⟨"é\x7bö'\x7d' if x".toList, 6, 7, 12⟩),
        .ok (.flag true, ⟨"é\x7bö'\x7d' if x".toList, 6, 12, 12⟩),
        .ok (.char none, ⟨"é\x7bö'\x7d' if x".toList, 6, 12, 12⟩),
        .ok (.text "\x7d' if ".toList, ⟨"é\x7bö'\x7d' if x".toList, 6, 12, 12⟩)] := by
  have hs : byteSize "é\x7bö'\x7d' if x".toList < offsetLimit := by decide
  have hw : Span.slice ⟨2, 10⟩ "é\x7bö'\x7d' if x".toList = .ok "\x7bö'\x7d' if ".toList := by
    decide +kernel
  have hcourse (ops : List Op) (answers : List (Except Fault (Reply × Cursor)))
      (hrun : run (.within "é\x7bö'\x7d' if x".toList ⟨2, 10⟩) ops = answers) :
      Course "é\x7bö'\x7d' if x".toList ⟨2, 10⟩ (.within "é\x7bö'\x7d' if x".toList ⟨2, 10⟩)
        ops answers := by
    rw [← hrun]
    exact (course_of_window hs hw ops).2.2.2
  exact ⟨hs, hw, hcourse _ _ (by decide +kernel)⟩

end Stencil.Word
