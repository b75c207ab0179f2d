import Stencil.Proofs.Cursor
import Stencil.Proofs.Lexeme
import Stencil.SyntaxError

/-!
# Cursors in words

The offsets of a cursor are 32-bit words. Here its moves are made as a machine makes
them: every sum has to fit a word, nothing is taken from less, and the openers and
closers of a group are counted one by one. On a source whose size is a word, a cursor
that stands between characters moves in words as it does in numbers, and no move
faults.
-/

set_option autoImplicit false

namespace Stencil

@[simp] theorem ok_bind {ε α β : Type} (a : α) (f : α → Except ε β) :
    (Except.ok a >>= f) = f a :=
  rfl

@[simp] theorem pure_eq_ok {ε α : Type} (a : α) : (pure a : Except ε α) = .ok a := rfl

namespace Word

def ofSize (size : Nat) : Except Fault Nat :=
  if size < offsetLimit then .ok size else .error (.oversized size)

def add (a b : Nat) : Except Fault Nat := ofSize (a + b)

def sub (a b : Nat) : Except Fault Nat := if b ≤ a then .ok (a - b) else .error (.overdrawn 0 a b)

theorem ofSize_of_lt {size : Nat} (h : size < offsetLimit) : ofSize size = .ok size := by
  rw [ofSize, if_pos h]

theorem add_of_lt {a b : Nat} (h : a + b < offsetLimit) : add a b = .ok (a + b) :=
  ofSize_of_lt h

theorem sub_of_le {a b : Nat} (h : b ≤ a) : sub a b = .ok (a - b) := by
  rw [sub, if_pos h]

def within (source : Text) (window : Span) : Except Fault Cursor :=
  if window.stop ≤ byteSize source then .ok (.within source window)
  else .error (.unsliceable window.start window.stop)

def advance (cursor : Cursor) : Except Fault (Option Char × Cursor) := do
  match ← cursor.peek with
  | none => return (none, cursor)
  | some c =>
    let position ← add cursor.position c.utf8Size
    return (some c, { cursor with position })

def matchPrefix (cursor : Cursor) (pattern : Pattern) (consume : Bool) :
    Except Fault (Bool × Cursor) := do
  let ahead ← cursor.remaining
  match pattern ahead with
  | none => return (false, cursor)
  | some n =>
    if consume then
      let position ← add cursor.position (← ofSize (byteSize (ahead.take n)))
      return (true, { cursor with position })
    else return (true, cursor)

def closerAt (opener closer : Char) (offset depth : Nat) : Text → Except Fault (Option Nat)
  | [] => return none
  | c :: rest => do
    if c = opener then
      let depth ← add depth 1
      closerAt opener closer (offset + c.utf8Size) depth rest
    else if c = closer then
      let depth ← sub depth 1
      if depth = 0 then return some offset
      else closerAt opener closer (offset + c.utf8Size) depth rest
    else closerAt opener closer (offset + c.utf8Size) depth rest

def skipToPair (cursor : Cursor) (opener closer : Char) (includeClose : Bool) :
    Except Fault (Bool × Cursor) := do
  if (← cursor.peek) = some opener then
    match ← closerAt opener closer 0 0 (← cursor.remaining) with
    | none => return (false, cursor)
    | some offset =>
      let closeAt ← add cursor.position (← ofSize offset)
      let position ← if includeClose then add closeAt closer.utf8Size else pure closeAt
      return (true, { cursor with position })
  else return (false, cursor)

def find? (c : Char) (offset : Nat) : Text → Option Nat
  | [] => none
  | d :: rest => if d = c then some offset else find? c (offset + d.utf8Size) rest

def skipQuoted (cursor : Cursor) : Except Fault (Bool × Cursor) := do
  match ← cursor.peek with
  | none => return (false, cursor)
  | some quote =>
    if isQuote quote then
      let ahead ← cursor.remaining
      let body ← (← Span.between quote.utf8Size (byteSize ahead)).slice ahead
      match find? quote 0 body with
      | none => return (true, cursor.skipToEnd)
      | some offset =>
        let position ← add cursor.position (← ofSize (quote.utf8Size * 2 + offset))
        return (true, { cursor with position })
    else return (false, cursor)

def pass (cursor : Cursor) : Except Fault Cursor := do
  let (quoted, next) ← skipQuoted cursor
  if quoted then return next
  let (_, next) ← advance next
  return next

inductive Turn (σ ρ : Type) where
  | next (cursor : Cursor) (state : σ)
  | done (result : ρ)

def left (cursor : Cursor) : Nat := cursor.stop - cursor.position

/-- Takes turns up to the last one. It faults at a turn that does not move on. -/
def loop {σ ρ : Type} (turn : Cursor → σ → Outcome (Turn σ ρ)) (cursor : Cursor) (state : σ) :
    Outcome ρ := do
  match ← turn cursor state with
  | .done result => return result
  | .next next state =>
    if _h : left next < left cursor then loop turn next state
    else check (.error (.reversed next.position cursor.position))
termination_by left cursor

section

variable {σ ρ : Type} {turn : Cursor → σ → Outcome (Turn σ ρ)} {cursor : Cursor} {state : σ}

theorem loop_done {result : ρ} (h : turn cursor state = .ok (.done result)) :
    loop turn cursor state = .ok result := by
  rw [loop, h]
  rfl

theorem loop_next {next : Cursor} {state' : σ} (h : turn cursor state = .ok (.next next state'))
    (hl : left next < left cursor) : loop turn cursor state = loop turn next state' := by
  rw [loop, h, ok_bind]
  exact dif_pos hl

theorem loop_error {failure : Failure} (h : turn cursor state = .error failure) :
    loop turn cursor state = .error failure := by
  rw [loop, h]
  rfl

end

open Cursor (ofParts)

@[simp] theorem left_ofParts (before part ahead after : Text) :
    left (ofParts before part ahead after) = byteSize ahead := by
  simp [left, ofParts]

theorem within_eq (before ahead after : Text) :
    within (before ++ ahead ++ after) ⟨byteSize before, byteSize ahead⟩ =
      .ok (ofParts before [] ahead after) := by
  have hle : byteSize before + byteSize ahead ≤ byteSize (before ++ ahead ++ after) := by
    simp
  rw [within, Span.stop, if_pos hle]
  simp [Cursor.within, ofParts, Span.stop]

theorem within_whole (text : Text) :
    within text ⟨0, byteSize text⟩ = .ok (ofParts [] [] text []) := by
  have h := within_eq [] text []
  rwa [List.nil_append, List.append_nil, byteSize_nil] at h

theorem map_consFirst_closer {opener closer : Char} (c : Char) (offset depth : Nat) (text : Text) :
    ((splitGroup? opener closer depth text).map (consFirst c)).map
        (fun r => offset + byteSize r.1.dropLast) =
      (splitGroup? opener closer depth text).map
        fun r => offset + c.utf8Size + byteSize r.1.dropLast := by
  rcases hs : splitGroup? opener closer depth text with _ | ⟨s, rest⟩
  · rfl
  · obtain ⟨inside, rfl, _⟩ := eq_append_of_splitGroup? hs
    have hlast : (c :: (inside ++ [closer])).dropLast = c :: inside := by
      rw [← List.cons_append, List.dropLast_concat]
    simp [consFirst, hlast, Nat.add_assoc]

/-- The counter never falls below the groups that are open, and it finds their closer. -/
theorem closerAt_eq {opener closer : Char} (offset depth : Nat) (text : Text)
    (h : depth + 1 + text.length < offsetLimit) :
    closerAt opener closer offset (depth + 1) text =
      .ok ((splitGroup? opener closer depth text).map fun r => offset + byteSize r.1.dropLast) := by
  induction text generalizing offset depth with
  | nil => rfl
  | cons c text ih =>
    rw [List.length_cons] at h
    rw [closerAt]
    by_cases ho : c = opener
    · subst ho
      rw [if_pos rfl, splitGroup?_opener, map_consFirst_closer, add_of_lt (by omega)]
      exact ih (offset + c.utf8Size) (depth + 1) (by omega)
    by_cases hc : c = closer
    · subst hc
      rw [if_neg ho, if_pos rfl, sub_of_le (by omega)]
      cases depth with
      | zero =>
        rw [splitGroup?_closer_zero (Ne.symm ho)]
        rfl
      | succ depth =>
        rw [splitGroup?_closer_succ (Ne.symm ho), map_consFirst_closer]
        exact ih (offset + c.utf8Size) depth (by omega)
    · rw [if_neg ho, if_neg hc, splitGroup?_other ho hc, map_consFirst_closer]
      exact ih (offset + c.utf8Size) depth (by omega)

section

variable {before part ahead after : Text}

theorem advance_eq (h : byteSize (before ++ part ++ ahead ++ after) < offsetLimit) :
    advance (ofParts before part ahead after) = (ofParts before part ahead after).advance := by
  rw [advance, Cursor.advance, Cursor.peek_ofParts]
  cases ahead with
  | nil => rfl
  | cons c ahead =>
    simp only [byteSize_append, byteSize_cons] at h
    simp only [ok_bind, List.head?_cons, Cursor.position_ofParts]
    rw [add_of_lt (by omega), ok_bind]
    simp [Cursor.moveOver]

theorem advance_cons {c : Char}
    (h : byteSize (before ++ part ++ c :: ahead ++ after) < offsetLimit) :
    advance (ofParts before part (c :: ahead) after) =
      .ok (some c, ofParts before (part ++ [c]) ahead after) := by
  have hmove := Cursor.moveOver_ofParts before part ahead after [c]
  rw [advance_eq h, Cursor.advance, Cursor.peek_ofParts]
  exact congrArg (fun next => Except.ok (some c, next)) hmove

theorem matchPrefix_eq (h : byteSize (before ++ part ++ ahead ++ after) < offsetLimit)
    (pattern : Pattern) (consume : Bool) :
    matchPrefix (ofParts before part ahead after) pattern consume =
      (ofParts before part ahead after).matchPrefix pattern consume := by
  rw [matchPrefix, Cursor.matchPrefix, Cursor.remaining_ofParts]
  cases hp : pattern ahead with
  | none => simp [hp]
  | some n =>
    have hsplit := congrArg byteSize (List.take_append_drop n ahead)
    simp only [byteSize_append] at h hsplit
    cases consume with
    | false => simp [hp]
    | true =>
      simp only [ok_bind, hp, Cursor.position_ofParts, if_true]
      rw [ofSize_of_lt (by omega), ok_bind, add_of_lt (by omega), ok_bind]
      rfl

theorem skipToPair_eq_of_remaining {cursor : Cursor} (hr : cursor.remaining = .ok ahead)
    (h : cursor.position + byteSize ahead < offsetLimit) (opener closer : Char)
    (includeClose : Bool) : skipToPair cursor opener closer includeClose =
      cursor.skipToPair opener closer includeClose := by
  rw [skipToPair, Cursor.skipToPair, Cursor.peek, Cursor.peekNth, hr]
  cases ahead with
  | nil => simp
  | cons c rest =>
    by_cases hc : c = opener
    · subst hc
      have hlength := length_le_byteSize rest
      have hpos := c.utf8Size_pos
      rw [byteSize_cons] at h
      have hcount := @closerAt_eq c closer c.utf8Size 0 rest (by omega)
      -- The opener itself is the first group that is open.
      have hfirst : closerAt c closer 0 0 (c :: rest) = closerAt c closer c.utf8Size 1 rest := by
        rw [closerAt, if_pos rfl, add_of_lt (by decide), ok_bind, Nat.zero_add, Nat.zero_add]
      simp only [ok_bind, pure_eq_ok, List.getElem?_cons_zero, if_true, hfirst, hcount]
      cases hs : splitGroup? c closer 0 rest with
      | none => rfl
      | some pair =>
        obtain ⟨s, others⟩ := pair
        obtain ⟨inside, rfl, rfl⟩ := eq_append_of_splitGroup? hs
        simp only [byteSize_append, byteSize_cons, byteSize_nil] at h
        simp only [Option.map_some, List.dropLast_concat]
        rw [ofSize_of_lt (by omega), ok_bind, add_of_lt (by omega), ok_bind]
        cases includeClose with
        | true =>
          rw [if_pos rfl, add_of_lt (by omega)]
          simp [Cursor.moveOver, Nat.add_assoc]
        | false => simp [Cursor.moveOver]
    · simp [hc]

theorem skipToPair_eq (h : byteSize (before ++ part ++ ahead ++ after) < offsetLimit)
    (opener closer : Char) (includeClose : Bool) :
    skipToPair (ofParts before part ahead after) opener closer includeClose =
      (ofParts before part ahead after).skipToPair opener closer includeClose := by
  refine skipToPair_eq_of_remaining (Cursor.remaining_ofParts ..) ?_ opener closer includeClose
  simp only [byteSize_append] at h
  rw [Cursor.position_ofParts]
  omega

theorem find?_of_not_mem {c : Char} {t : Text} (h : c ∉ t) (offset : Nat) :
    find? c offset t = none := by
  induction t generalizing offset with
  | nil => rfl
  | cons d t ih =>
    obtain ⟨hd, ht⟩ : c ≠ d ∧ c ∉ t := by simpa using h
    rw [find?, if_neg hd.symm]
    exact ih ht (offset + d.utf8Size)

theorem find?_append_cons {c : Char} {inside : Text} (h : c ∉ inside) (offset : Nat)
    (rest : Text) : find? c offset (inside ++ c :: rest) = some (offset + byteSize inside) := by
  induction inside generalizing offset with
  | nil => exact if_pos rfl
  | cons d inside ih =>
    obtain ⟨hd, hi⟩ : c ≠ d ∧ c ∉ inside := by simpa using h
    rw [List.cons_append, find?, if_neg hd.symm, ih hi, byteSize_cons, Nat.add_assoc]

theorem skipQuoted_eq (h : byteSize (before ++ part ++ ahead ++ after) < offsetLimit) :
    skipQuoted (ofParts before part ahead after) =
      (ofParts before part ahead after).skipQuoted := by
  rw [skipQuoted, Cursor.skipQuoted, Cursor.peek_ofParts, Cursor.remaining_ofParts]
  cases ahead with
  | nil => simp
  | cons c rest =>
    by_cases hc : isQuote c = true
    · have hslice : Span.slice ⟨c.utf8Size, byteSize rest⟩ (c :: rest) = .ok rest := by
        simpa [Span.slice, Place.start] using Place.slice_append 0 [c] rest []
      simp only [ok_bind, List.head?_cons, if_pos hc, byteSize_cons, Span.between_add, hslice]
      by_cases hmem : c ∈ rest
      · obtain ⟨inside, others, rfl, hi⟩ := List.eq_append_cons_of_mem hmem
        simp only [byteSize_append, byteSize_cons] at h
        simp only [find?_append_cons hi, splitQuote_append_cons hi, Nat.zero_add,
          Cursor.position_ofParts]
        rw [ofSize_of_lt (by omega), ok_bind, add_of_lt (by omega), ok_bind]
        -- Both quotes are counted at once.
        have hsize : c.utf8Size * 2 + byteSize inside = byteSize (c :: (inside ++ [c])) := by
          simp only [byteSize_cons, byteSize_append, byteSize_nil]
          omega
        rw [hsize]
        rfl
      · simp [find?_of_not_mem hmem, splitQuote_of_not_mem hmem, Cursor.skipToEnd, Cursor.moveOver,
          ofParts]
    · simp [hc]

/-- Over a quoted run, to the quote that ends it or to the end of the window. -/
theorem pass_quoted {quote : Char} {s : Text} (hq : isQuote quote = true)
    (hs : splitQuote quote (s ++ ahead) = (s, ahead))
    (h : byteSize (before ++ part ++ quote :: (s ++ ahead) ++ after) < offsetLimit) :
    pass (ofParts before part (quote :: (s ++ ahead)) after) =
      .ok (ofParts before (part ++ quote :: s) ahead after) := by
  have hmove := Cursor.moveOver_ofParts before part ahead after (quote :: s)
  rw [List.cons_append] at hmove
  rw [pass, skipQuoted_eq h, Cursor.skipQuoted, Cursor.remaining_ofParts]
  simp only [ok_bind, if_pos hq, hs, hmove]
  rfl

theorem pass_single {c : Char} (hq : isQuote c = false)
    (h : byteSize (before ++ part ++ c :: ahead ++ after) < offsetLimit) :
    pass (ofParts before part (c :: ahead) after) =
      .ok (ofParts before (part ++ [c]) ahead after) := by
  have hquoted : skipQuoted (ofParts before part (c :: ahead) after) =
      .ok (false, ofParts before part (c :: ahead) after) := by
    rw [skipQuoted_eq h, Cursor.skipQuoted, Cursor.remaining_ofParts]
    simp [hq]
  rw [pass, hquoted, ok_bind]
  simp only [advance_cons h, ok_bind]
  rfl

theorem skipToPair_group {opener closer : Char} {s : Text}
    (hs : splitGroup? opener closer 0 (s ++ ahead) = some (s, ahead))
    (h : byteSize (before ++ part ++ opener :: (s ++ ahead) ++ after) < offsetLimit) :
    skipToPair (ofParts before part (opener :: (s ++ ahead)) after) opener closer true =
      .ok (true, ofParts before (part ++ opener :: s) ahead after) := by
  have hmove := Cursor.moveOver_ofParts before part ahead after (opener :: s)
  rw [List.cons_append] at hmove
  rw [skipToPair_eq h, Cursor.skipToPair, Cursor.remaining_ofParts]
  simp only [ok_bind, if_true, hs, hmove]
  rfl

theorem skipToPair_open {opener closer : Char} (hs : splitGroup? opener closer 0 ahead = none)
    (h : byteSize (before ++ part ++ opener :: ahead ++ after) < offsetLimit) :
    skipToPair (ofParts before part (opener :: ahead) after) opener closer true =
      .ok (false, ofParts before part (opener :: ahead) after) := by
  rw [skipToPair_eq h, Cursor.skipToPair, Cursor.remaining_ofParts]
  simp [hs]

theorem skipToPair_other {opener closer c : Char} (hc : c ≠ opener)
    (h : byteSize (before ++ part ++ c :: ahead ++ after) < offsetLimit) :
    skipToPair (ofParts before part (c :: ahead) after) opener closer true =
      .ok (false, ofParts before part (c :: ahead) after) := by
  rw [skipToPair_eq h, Cursor.skipToPair, Cursor.remaining_ofParts, ok_bind]
  exact if_neg hc

theorem loop_moved {σ ρ : Type} {turn : Cursor → σ → Outcome (Turn σ ρ)} {state state' : σ}
    {before' part' ahead' : Text} {c : Char} (hs : ahead' <:+ ahead)
    (h : turn (ofParts before part (c :: ahead) after) state =
      .ok (.next (ofParts before' part' ahead' after) state')) :
    loop turn (ofParts before part (c :: ahead) after) state =
      loop turn (ofParts before' part' ahead' after) state' := by
  obtain ⟨s, rfl⟩ := hs
  refine loop_next h ?_
  have hc := c.utf8Size_pos
  simp only [left_ofParts, byteSize_cons, byteSize_append]
  omega

end

end Word

end Stencil
