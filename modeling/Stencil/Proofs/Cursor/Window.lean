import Stencil.Proofs.Cursor.Run
import Stencil.Proofs.Shift

/-!
# A window is a text of its own

A cursor on a window of a source and a cursor on the text under that window do the same
when they are asked the same. What stands before the window or after it shows in no
reply and in no move: offsets are further on by where the window begins, and each
cursor has its own source.
-/

set_option autoImplicit false

namespace Stencil

namespace Cursor

/-- Two cursors that show the same, the offsets of the first `amount` further on. -/
structure Mirrors (amount : Nat) (far near : Cursor) : Prop where
  position_eq : far.position = near.position + amount
  start_eq : far.start = near.start + amount
  isAtEnd_eq : far.isAtEnd = near.isAtEnd
  span : ∃ span, far.span = .ok (span.shift amount) ∧ near.span = .ok span
  current : ∃ t, far.current = .ok t ∧ near.current = .ok t
  currentTrimEndQuote : ∃ t, far.currentTrimEndQuote = .ok t ∧ near.currentTrimEndQuote = .ok t
  remaining : ∃ t, far.remaining = .ok t ∧ near.remaining = .ok t

inductive Replies (source body : Text) (amount : Nat) : Op → Reply → Reply → Prop
  | source : Replies source body amount .source (.text source) (.text body)
  | span (span : Span) : Replies source body amount .span (.span (span.shift amount)) (.span span)
  | same {op : Op} (hs : op ≠ .source) (hp : op ≠ .span) (reply : Reply) :
      Replies source body amount op reply reply

inductive Abreast (source body : Text) (amount : Nat) : List Op →
    List (Except Fault (Reply × Cursor)) → List (Except Fault (Reply × Cursor)) → Prop
  | nil : Abreast source body amount [] [] []
  | cons {op : Op} {ops : List Op} {reply reply' : Reply} {far near : Cursor}
      {answers answers' : List (Except Fault (Reply × Cursor))}
      (hr : Replies source body amount op reply reply') (hm : Mirrors amount far near)
      (ha : Abreast source body amount ops answers answers') :
      Abreast source body amount (op :: ops) (.ok (reply, far) :: answers)
        (.ok (reply', near) :: answers')

section

variable (front before part ahead after : Text)

theorem mirrors_ofParts : Mirrors (byteSize front) (ofParts (front ++ before) part ahead after)
    (ofParts before part ahead []) where
  position_eq := by
    rw [position_ofParts, position_ofParts, byteSize_append]
    omega
  start_eq := by
    rw [start_ofParts, start_ofParts, byteSize_append]
    omega
  isAtEnd_eq := by rw [isAtEnd_ofParts, isAtEnd_ofParts]
  span := by
    refine ⟨⟨byteSize before, byteSize part⟩, ?_, span_ofParts ..⟩
    rw [span_ofParts, Span.shift, byteSize_append, Nat.add_comm]
  current := ⟨part, current_ofParts .., current_ofParts ..⟩
  currentTrimEndQuote := by
    obtain ⟨t, ht⟩ := currentTrimEndQuote_ofParts part
    exact ⟨t, ht .., ht ..⟩
  remaining := ⟨ahead, remaining_ofParts .., remaining_ofParts ..⟩

/-- One operation keeps the two cursors over the same part and the same text ahead. -/
theorem step_mirrors (op : Op) : ∃ reply reply' before' part' ahead',
    (ofParts (front ++ before) part ahead after).step op =
      .ok (reply, ofParts (front ++ before') part' ahead' after) ∧
    (ofParts before part ahead []).step op = .ok (reply', ofParts before' part' ahead' []) ∧
    before' ++ part' ++ ahead' = before ++ part ++ ahead ∧
    Replies (front ++ (before ++ part ++ ahead) ++ after) (before ++ part ++ ahead)
      (byteSize front) op reply reply' := by
  by_cases hl : op.IsLocal
  · obtain ⟨reply, moved, rest, rfl, _, hstep⟩ := exists_local hl part ahead
    refine ⟨reply, reply, before, part ++ moved, rest, hstep _ _, hstep _ _, by simp, ?_⟩
    apply Replies.same
    · rintro rfl
      exact hl
    · rintro rfl
      exact hl
  · cases op with
    | resetStart =>
      refine ⟨.done, .done, before ++ part, [], ahead, ?_, ?_, by simp,
        .same (by simp) (by simp) .done⟩
      · rw [step, resetStart_ofParts, List.append_assoc]
        rfl
      · rw [step, resetStart_ofParts]
        rfl
    | source =>
      refine ⟨_, _, before, part, ahead, rfl, rfl, rfl, ?_⟩
      simp only [ofParts, List.append_assoc, List.append_nil]
      exact .source
    | span =>
      refine ⟨_, .span ⟨byteSize before, byteSize part⟩, before, part, ahead, ?_, ?_, rfl,
        .span ⟨byteSize before, byteSize part⟩⟩
      · rw [step, span_ofParts, Span.shift, byteSize_append, Nat.add_comm]
        rfl
      · rw [step, span_ofParts]
        rfl
    | _ => exact absurd trivial hl

theorem run_mirrors (ops : List Op) :
    Abreast (front ++ (before ++ part ++ ahead) ++ after) (before ++ part ++ ahead)
      (byteSize front) ops ((ofParts (front ++ before) part ahead after).run ops)
      ((ofParts before part ahead []).run ops) := by
  induction ops generalizing before part ahead with
  | nil => exact .nil
  | cons op ops ih =>
    obtain ⟨reply, reply', before', part', ahead', hfar, hnear, hbody, hreplies⟩ :=
      step_mirrors front before part ahead after op
    have ih := ih before' part' ahead'
    rw [hbody] at ih
    rw [run, run, hfar, hnear]
    exact .cons hreplies (mirrors_ofParts front before' part' ahead' after) ih

end

/-- A cursor on a window and one on the text under the window do the same in every run, the offsets
of the one further on by the start of the window. -/
theorem window_abreast {source body : Text} {window : Span} (hs : byteSize body < offsetLimit)
    (hw : window.slice source = .ok body) (ops : List Op) :
    ∃ alone, ofText body = .ok alone ∧
      Mirrors window.start (within source window) alone ∧
      Abreast source body window.start ops ((within source window).run ops) (alone.run ops) := by
  obtain ⟨before, after, rfl, rfl⟩ := Span.slice_eq_ok_iff.mp hw
  have hfar : within (before ++ body ++ after) ⟨byteSize before, byteSize body⟩ =
      ofParts (before ++ []) [] body after := by
    simp [within, ofParts, Span.stop]
  have hnear : ofText body = .ok (ofParts [] [] body []) := by
    rw [ofText, Span.ofText, if_pos hs]
    simp [within, ofParts, Span.stop, bind, Except.bind, pure, Except.pure]
  refine ⟨_, hnear, ?_, ?_⟩
  · rw [hfar]
    exact mirrors_ofParts before [] [] body after
  · rw [hfar]
    exact run_mirrors before [] [] body after ops

theorem window_abreast_open_quote :
    byteSize " (\"x".toList < offsetLimit ∧
    Span.slice ⟨3, 4⟩ "é' (\"x)\"".toList = .ok " (\"x".toList ∧
    ofText " (\"x".toList = .ok ⟨" (\"x".toList, 0, 0, 4⟩ ∧
    Mirrors 3 (within "é' (\"x)\"".toList ⟨3, 4⟩) ⟨" (\"x".toList, 0, 0, 4⟩ ∧
    Abreast "é' (\"x)\"".toList " (\"x".toList 3
      [.matchPrefix .blanks true, .resetStart, .skipToPair '(' ')' true, .advance, .skipQuoted,
        .span]
      [.ok (.flag true, ⟨"é' (\"x)\"".toList, 3, 4, 7⟩),
        .ok (.done, ⟨"é' (\"x)\"".toList, 4, 4, 7⟩),
        .ok (.flag false, ⟨"é' (\"x)\"".toList, 4, 4, 7⟩),
        .ok (.char (some '('), ⟨"é' (\"x)\"".toList, 4, 5, 7⟩),
        .ok (.flag true, ⟨"é' (\"x)\"".toList, 4, 7, 7⟩),
        .ok (.span ⟨4, 3⟩, ⟨"é' (\"x)\"".toList, 4, 7, 7⟩)]
      [.ok (.flag true, ⟨" (\"x".toList, 0, 1, 4⟩),
        .ok (.done, ⟨" (\"x".toList, 1, 1, 4⟩),
        .ok (.flag false, ⟨" (\"x".toList, 1, 1, 4⟩),
        .ok (.char (some '('), ⟨" (\"x".toList, 1, 2, 4⟩),
        .ok (.flag true, ⟨" (\"x".toList, 1, 4, 4⟩),
        .ok (.span ⟨1, 3⟩, ⟨" (\"x".toList, 1, 4, 4⟩)] := by
  have hs : byteSize " (\"x".toList < offsetLimit := by decide
  have hw : Span.slice ⟨3, 4⟩ "é' (\"x)\"".toList = .ok " (\"x".toList := by decide +kernel
  have ho : ofText " (\"x".toList = .ok ⟨" (\"x".toList, 0, 0, 4⟩ := by decide +kernel
  refine ⟨hs, hw, ho, ?_⟩
  have habreast (ops : List Op) (answers answers' : List (Except Fault (Reply × Cursor)))
      (hfar : (within "é' (\"x)\"".toList ⟨3, 4⟩).run ops = answers)
      (hnear : (⟨" (\"x".toList, 0, 0, 4⟩ : Cursor).run ops = answers') :
      Mirrors 3 (within "é' (\"x)\"".toList ⟨3, 4⟩) ⟨" (\"x".toList, 0, 0, 4⟩ ∧
        Abreast "é' (\"x)\"".toList " (\"x".toList 3 ops answers answers' := by
    obtain ⟨alone, halone, hrun⟩ := window_abreast hs hw ops
    obtain rfl := Except.ok.inj (ho.symm.trans halone)
    rwa [hfar, hnear] at hrun
  exact habreast _ _ _ (by decide +kernel) (by decide +kernel)

end Cursor

end Stencil
