import Stencil.Proofs.Segment.Slice
import Stencil.Proofs.Word

/-!
# Splitting in words

The splitter as a loop of a cursor that counts in words: at a comma it hands on the
trimmed part before it, over groups and quoted runs it moves at once. On a source
whose size is a word no turn faults, and the loop splits a window as it is split in
numbers.
-/

set_option autoImplicit false

namespace Stencil.Word

open Cursor (ofParts)

def unmatched {α : Type} (opener : Char) (position : Nat) : Outcome α := do
  let stop ← check (add position opener.utf8Size)
  let span ← check (Span.between position stop)
  refuse (.unmatchedPair opener) span

def overGroup {σ ρ : Type} (cursor : Cursor) (opener closer : Char) (state : σ) :
    Outcome (Turn σ ρ) := do
  let (skipped, next) ← check (skipToPair cursor opener closer true)
  if skipped then return .next next state
  unmatched opener cursor.position

def pushSegment (cursor : Cursor) (segments : List Segment) : Except Fault (List Segment) := do
  let raw ← cursor.current
  let text := trim raw
  if text.isEmpty then return segments
  let start ← add cursor.start (← ofSize (← sub (byteSize raw) (byteSize (trimStart raw))))
  let stop ← add start (← ofSize (byteSize text))
  let span ← Span.between start stop
  return segments ++ [⟨text, span⟩]

def splitTurn (cursor : Cursor) (segments : List Segment) :
    Outcome (Turn (List Segment) (List Segment)) := do
  match ← check cursor.peek with
  | none => return .done (← check (pushSegment cursor segments))
  | some c =>
    match closer? c with
    | some closer => overGroup cursor c closer segments
    | none =>
      if c = ',' then
        let segments ← check (pushSegment cursor segments)
        let (_, next) ← check (advance cursor)
        return .next next.resetStart segments
      return .next (← check (pass cursor)) segments

def splitWithin (source : Text) (window : Span) : Outcome (List Segment) := do
  loop splitTurn (← check (within source window)) []

def split (text : Text) : Outcome (List Segment) := do
  splitWithin text (← check (Span.ofText text))

section

variable {before part ahead after : Text}

theorem unmatched_eq {α : Type} {opener : Char} {position : Nat}
    (h : position + opener.utf8Size < offsetLimit) :
    (unmatched opener position : Outcome α) =
      refuse (.unmatchedPair opener) (.ofChar opener position) := by
  rw [unmatched, add_of_lt h, check_ok, ok_bind, Span.between_add]
  rfl

theorem overGroup_closed {σ ρ : Type} {opener closer : Char} {s : Text}
    (hs : splitGroup? opener closer 0 (s ++ ahead) = some (s, ahead))
    (h : byteSize (before ++ part ++ opener :: (s ++ ahead) ++ after) < offsetLimit) (state : σ) :
    (overGroup (ofParts before part (opener :: (s ++ ahead)) after) opener closer state :
        Outcome (Turn σ ρ)) =
      .ok (.next (ofParts before (part ++ opener :: s) ahead after) state) := by
  rw [overGroup, skipToPair_group hs h]
  rfl

theorem overGroup_open {σ ρ : Type} {opener closer : Char}
    (hs : splitGroup? opener closer 0 ahead = none)
    (h : byteSize (before ++ part ++ opener :: ahead ++ after) < offsetLimit) (state : σ) :
    (overGroup (ofParts before part (opener :: ahead) after) opener closer state :
        Outcome (Turn σ ρ)) =
      refuse (.unmatchedPair opener) (.ofChar opener (byteSize before + byteSize part)) := by
  rw [overGroup, skipToPair_open hs h]
  simp only [byteSize_append, byteSize_cons] at h
  exact unmatched_eq (by rw [Cursor.position_ofParts]; omega)

theorem pushSegment_eq (h : byteSize (before ++ part ++ ahead ++ after) < offsetLimit)
    (segments : List Segment) :
    pushSegment (ofParts before part ahead after) segments =
      .ok (segments ++ Segment.ofPiece (byteSize before) part) := by
  rw [pushSegment, Cursor.current_ofParts, ok_bind]
  by_cases ht : trim part = []
  · simp [Segment.ofPiece_blank ht, ht]
  · obtain ⟨w, _, hpart⟩ := eq_append_trim part
    have hsize := congrArg byteSize hpart
    have hlead := congrArg byteSize (leadingBlanks_append_trimStart part)
    simp only [byteSize_append] at h hsize hlead
    rw [Segment.ofPiece_entry ht, if_neg (by simpa using ht), sub_of_le (by omega), ok_bind,
      show byteSize part - byteSize (trimStart part) = byteSize (leadingBlanks part) by omega,
      ofSize_of_lt (by omega), ok_bind, Cursor.start_ofParts, add_of_lt (by omega), ok_bind,
      ofSize_of_lt (by omega), ok_bind, add_of_lt (by omega), ok_bind, Span.between_add]
    rfl

theorem splitTurn_end (h : byteSize (before ++ part ++ [] ++ after) < offsetLimit)
    (segments : List Segment) :
    splitTurn (ofParts before part [] after) segments =
      .ok (.done (segments ++ Segment.ofPiece (byteSize before) part)) := by
  rw [splitTurn, Cursor.peek_ofParts, check_ok, ok_bind, pushSegment_eq h]
  rfl

theorem splitTurn_opener {c closer : Char} (hc : closer? c = some closer)
    (segments : List Segment) :
    splitTurn (ofParts before part (c :: ahead) after) segments =
      overGroup (ofParts before part (c :: ahead) after) c closer segments := by
  rw [splitTurn, Cursor.peek_ofParts, check_ok, ok_bind, List.head?_cons]
  simp only [hc]

theorem splitTurn_comma (h : byteSize (before ++ part ++ ',' :: ahead ++ after) < offsetLimit)
    (segments : List Segment) :
    splitTurn (ofParts before part (',' :: ahead) after) segments =
      .ok (.next (ofParts (before ++ (part ++ [','])) [] ahead after)
        (segments ++ Segment.ofPiece (byteSize before) part)) := by
  rw [splitTurn, Cursor.peek_ofParts, check_ok, ok_bind, List.head?_cons]
  simp only [show closer? ',' = none from rfl, if_true, pushSegment_eq h, advance_cons h, check_ok,
    ok_bind, Cursor.resetStart_ofParts]
  rfl

theorem splitTurn_pass {c : Char} {ahead' part' : Text} (hc : closer? c = none) (hne : c ≠ ',')
    (hp : pass (ofParts before part (c :: ahead) after) = .ok (ofParts before part' ahead' after))
    (segments : List Segment) :
    splitTurn (ofParts before part (c :: ahead) after) segments =
      .ok (.next (ofParts before part' ahead' after) segments) := by
  rw [splitTurn, Cursor.peek_ofParts, check_ok, ok_bind, List.head?_cons]
  simp only [hc, if_neg hne, hp, check_ok, ok_bind]
  rfl

theorem loop_splitTurn (h : byteSize (before ++ part ++ ahead ++ after) < offsetLimit)
    (segments : List Segment) :
    loop splitTurn (ofParts before part ahead after) segments =
      (Segment.cut ⟨byteSize before, part ++ ahead⟩ (byteSize before + byteSize part)
        (Lexeme.read closer? ahead)).map (segments ++ ·) := by
  -- Each turn takes one lexeme; a comma makes the part that was read a piece before the window.
  fun_induction Lexeme.read closer? ahead generalizing before part segments with
  | case1 =>
    rw [loop_done (splitTurn_end h segments), List.append_nil, Segment.cut_nil]
    rfl
  | case2 c rest closer hc s ahead hs ih =>
    obtain ⟨_, _, rfl⟩ := eq_append_of_splitGroup? hs
    have hturn := (splitTurn_opener hc segments).trans (overGroup_closed hs h segments)
    rw [loop_moved (List.suffix_append s ahead) hturn, ih (by simpa [Nat.add_assoc] using h),
      Segment.cut_join (by simp) rfl]
    simp [Lexeme.size, Lexeme.text, Nat.add_assoc]
  | case3 c rest closer hc hs =>
    rw [loop_error ((splitTurn_opener hc segments).trans (overGroup_open hs h segments))]
    rfl
  | case4 c rest hc hq ih =>
    rcases hs : splitQuote c rest with ⟨s, ahead⟩
    obtain rfl : s ++ ahead = rest := by simpa [hs] using splitQuote_append c rest
    rw [hs] at ih
    have hne : c ≠ ',' := by
      rintro rfl
      cases hq
    have hturn := splitTurn_pass hc hne (pass_quoted hq hs h) segments
    rw [loop_moved (List.suffix_append s ahead) hturn, ih (by simpa [Nat.add_assoc] using h),
      Segment.cut_join (by simp) rfl]
    simp [Lexeme.size, Lexeme.text, Nat.add_assoc]
  | case5 c ahead hc hq ih =>
    by_cases hcomma : c = ','
    · subst hcomma
      rw [loop_moved (List.suffix_refl ahead) (splitTurn_comma h segments),
        ih (by simpa [Nat.add_assoc] using h), Segment.cut_comma,
        List.nil_append, byteSize_nil, Nat.add_zero, byteSize_append, byteSize_append,
        ← Nat.add_assoc, show byteSize [','] = 1 from rfl]
      cases Segment.cut _ _ (Lexeme.read closer? ahead) with
      | error failure => rfl
      | ok others => simp [Except.map]
    · have hturn := splitTurn_pass hc hcomma (pass_single (by simpa using hq) h) segments
      have hcut : Lexeme.single c ≠ .single ',' := by simpa using hcomma
      rw [loop_moved (List.suffix_refl ahead) hturn, ih (by simpa [Nat.add_assoc] using h),
        Segment.cut_join hcut rfl]
      simp [Lexeme.size, Lexeme.text, Nat.add_assoc]

end

theorem splitWithin_eq (before body after : Text)
    (h : byteSize (before ++ body ++ after) < offsetLimit) :
    splitWithin (before ++ body ++ after) ⟨byteSize before, byteSize body⟩ =
      Segment.ofLexemes (byteSize before) (Lexeme.read closer? body) := by
  have hloop := @loop_splitTurn before [] body after (by simpa using h) []
  rw [List.nil_append, byteSize_nil, Nat.add_zero, Segment.cut_read] at hloop
  rw [splitWithin, within_eq, check_ok, ok_bind, hloop]
  cases Segment.ofLexemes (byteSize before) (Lexeme.read closer? body) <;> rfl

/-- A text is split in words as it is in numbers. -/
theorem split_eq {t : Text} (h : byteSize t < offsetLimit) : split t = Segment.split t := by
  have hsplit := splitWithin_eq [] t [] (by simpa using h)
  rw [List.nil_append, List.append_nil, byteSize_nil] at hsplit
  rw [split, Span.ofText, if_pos h, check_ok, ok_bind, hsplit, Segment.split_eq_ofLexemes h]

end Stencil.Word
