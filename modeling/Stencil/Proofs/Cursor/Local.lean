import Stencil.Cursor.Step
import Stencil.Proofs.Cursor

/-!
# What decides an answer

An operation is told the part being read and the text ahead. What stands before the
part and after the window decides neither the reply nor how far the cursor moves,
unless the operation asks for offsets, for the source, or for a new part.
-/

set_option autoImplicit false

namespace Stencil

namespace Cursor

structure Local (op : Op) (part ahead : Text) (reply : Reply) (moved rest : Text) : Prop where
  ahead_eq : ahead = moved ++ rest
  unmoved : reply = .flag false ∨ reply = .char none → moved = []
  step_eq : ∀ before after, (ofParts before part ahead after).step op =
    .ok (reply, ofParts before (part ++ moved) rest after)

def Op.IsLocal : Op → Prop
  | .resetStart => False
  | .source => False
  | .span => False
  | _ => True

section

variable {op : Op} {part ahead : Text}

theorem local_stay {reply : Reply} (h : ∀ before after, (ofParts before part ahead after).step op =
      .ok (reply, ofParts before part ahead after)) :
    Local op part ahead reply [] ahead where
  ahead_eq := rfl
  unmoved := fun _ => rfl
  step_eq := by
    intro before after
    rw [h, List.append_nil]

theorem local_move {reply : Reply} {moved rest : Text} (ha : ahead = moved ++ rest)
    (hreply : ¬ (reply = .flag false ∨ reply = .char none))
    (h : ∀ before after, (ofParts before part ahead after).step op =
      .ok (reply, (ofParts before part ahead after).moveOver moved)) :
    Local op part ahead reply moved rest where
  ahead_eq := ha
  unmoved := fun hsame => absurd hsame hreply
  step_eq := by
    intro before after
    rw [h, ha, moveOver_ofParts]

theorem currentTrimEndQuote_ofParts (part : Text) : ∃ t, ∀ before ahead after,
    (ofParts before part ahead after).currentTrimEndQuote = .ok t := by
  simp only [currentTrimEndQuote, current_ofParts]
  rcases part with _ | ⟨first, _ | ⟨second, rest⟩⟩
  · exact ⟨_, fun _ _ _ => rfl⟩
  · exact ⟨_, fun _ _ _ => rfl⟩
  · exact ⟨_, fun _ _ _ => rfl⟩

theorem exists_local_advance (part ahead : Text) :
    ∃ reply moved rest, Local .advance part ahead reply moved rest := by
  cases ahead with
  | nil =>
    refine ⟨.char none, [], [], local_stay ?_⟩
    simp [step, advance, bind, Except.bind, pure, Except.pure]
  | cons c ahead =>
    refine ⟨.char (some c), [c], ahead, local_move rfl (by simp) ?_⟩
    simp [step, advance, bind, Except.bind, pure, Except.pure]

theorem exists_local_skipToEnd (part ahead : Text) :
    ∃ reply moved rest, Local .skipToEnd part ahead reply moved rest := by
  refine ⟨.done, ahead, [], by simp, by simp, ?_⟩
  intro before after
  rw [step, skipToEnd_ofParts]
  rfl

theorem exists_local_skipQuoted (part ahead : Text) :
    ∃ reply moved rest, Local .skipQuoted part ahead reply moved rest := by
  cases ahead with
  | nil =>
    refine ⟨.flag false, [], [], local_stay ?_⟩
    simp [step, skipQuoted, bind, Except.bind, pure, Except.pure]
  | cons c ahead =>
    by_cases hq : isQuote c = true
    · refine ⟨.flag true, c :: (splitQuote c ahead).1, (splitQuote c ahead).2,
        local_move ?_ (by simp) ?_⟩
      · rw [List.cons_append, splitQuote_append]
      · simp [step, skipQuoted, bind, Except.bind, pure, Except.pure, hq]
    · refine ⟨.flag false, [], c :: ahead, local_stay ?_⟩
      simp [step, skipQuoted, bind, Except.bind, pure, Except.pure, hq]

theorem exists_append_of_group (includeClose : Bool) {rest s others : Text}
    (h : rest = s ++ others) :
    ∃ u, rest = (if includeClose then s else s.dropLast) ++ u := by
  have hprefix : (if includeClose then s else s.dropLast) <+: rest := by
    rw [h]
    apply List.IsPrefix.trans ?_ (List.prefix_append s others)
    cases includeClose with
    | true => exact List.prefix_refl s
    | false => exact List.dropLast_prefix s
  obtain ⟨u, hu⟩ := hprefix
  exact ⟨u, hu.symm⟩

theorem exists_local_skipToPair (opener closer : Char) (includeClose : Bool) (part ahead : Text) :
    ∃ reply moved rest,
      Local (.skipToPair opener closer includeClose) part ahead reply moved rest := by
  cases ahead with
  | nil =>
    refine ⟨.flag false, [], [], local_stay ?_⟩
    simp [step, skipToPair, bind, Except.bind, pure, Except.pure]
  | cons c ahead =>
    by_cases hc : c = opener
    · cases hs : splitGroup? opener closer 0 ahead with
      | none =>
        refine ⟨.flag false, [], c :: ahead, local_stay ?_⟩
        simp [step, skipToPair, bind, Except.bind, pure, Except.pure, hc, hs]
      | some pair =>
        obtain ⟨s, others⟩ := pair
        obtain ⟨inside, _, hsplit⟩ := eq_append_of_splitGroup? hs
        obtain ⟨u, hu⟩ := exists_append_of_group includeClose hsplit
        refine ⟨.flag true, c :: (if includeClose then s else s.dropLast), u,
          local_move ?_ (by simp) ?_⟩
        · rw [List.cons_append, ← hu]
        · simp [step, skipToPair, bind, Except.bind, pure, Except.pure, hc, hs]
    · refine ⟨.flag false, [], c :: ahead, local_stay ?_⟩
      simp [step, skipToPair, bind, Except.bind, pure, Except.pure, hc]

theorem exists_local_matchPrefix (pattern : Pattern) (consume : Bool) (part ahead : Text) :
    ∃ reply moved rest, Local (.matchPrefix pattern consume) part ahead reply moved rest := by
  cases hp : pattern ahead with
  | none =>
    refine ⟨.flag false, [], ahead, local_stay ?_⟩
    simp [step, matchPrefix, bind, Except.bind, pure, Except.pure, hp]
  | some n =>
    cases consume with
    | false =>
      refine ⟨.flag true, [], ahead, local_stay ?_⟩
      simp [step, matchPrefix, bind, Except.bind, pure, Except.pure, hp]
    | true =>
      refine ⟨.flag true, ahead.take n, ahead.drop n, local_move ?_ (by simp) ?_⟩
      · rw [List.take_append_drop]
      · simp [step, matchPrefix, bind, Except.bind, pure, Except.pure, hp]

end

/-- No operation faults over parts of a source, and most are answered by two of the parts alone. -/
theorem exists_local {op : Op} (h : op.IsLocal) (part ahead : Text) :
    ∃ reply moved rest, Local op part ahead reply moved rest := by
  -- The answer to an operation that only looks.
  have looks {op : Op} {reply : Reply} (hstep : ∀ before after,
      (ofParts before part ahead after).step op = .ok (reply, ofParts before part ahead after)) :
      ∃ reply moved rest, Local op part ahead reply moved rest :=
    ⟨reply, [], ahead, local_stay hstep⟩
  cases op with
  | peek => exact looks fun _ _ => by rw [step, peek_ofParts]; rfl
  | peekNth n => exact looks fun _ _ => by rw [step, peekNth_ofParts]; rfl
  | advance => exact exists_local_advance part ahead
  | skipToEnd => exact exists_local_skipToEnd part ahead
  | resetStart => exact h.elim
  | current => exact looks fun _ _ => by rw [step, current_ofParts]; rfl
  | currentTrimEndQuote =>
    obtain ⟨t, ht⟩ := currentTrimEndQuote_ofParts part
    exact looks fun _ _ => by rw [step, ht]; rfl
  | remaining => exact looks fun _ _ => by rw [step, remaining_ofParts]; rfl
  | source => exact h.elim
  | span => exact h.elim
  | skipQuoted => exact exists_local_skipQuoted part ahead
  | skipToPair opener closer includeClose =>
    exact exists_local_skipToPair opener closer includeClose part ahead
  | matchPrefix pattern consume => exact exists_local_matchPrefix pattern consume part ahead

end Cursor

end Stencil
