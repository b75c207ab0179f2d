import Stencil.Cursor.Step
import Stencil.Proofs.Group.Uneven
import Stencil.Proofs.Segment.Slice
import Stencil.Proofs.Word

/-!
# Where a skip ends

A skip over a group counts the brackets of one kind from the opener that stands ahead.
It ends with the first beginning of the window in which they are even, and stays where
none is. A skip over a quoted run ends with the next quote of the same kind. What such a
skip has moved over is enough to say where it ends, so the same text is skipped wherever
it stands.
-/

set_option autoImplicit false

namespace Stencil

namespace Cursor

section

variable {cursor : Cursor} {ahead rest : Text} {opener closer : Char} {includeClose : Bool}

theorem remaining_eq_ok_iff : cursor.remaining = .ok ahead ↔
    ∃ before after, cursor.source = before ++ ahead ++ after ∧
      cursor.position = byteSize before ∧ cursor.stop = byteSize before + byteSize ahead := by
  rw [remaining, Span.between]
  by_cases hle : cursor.position ≤ cursor.stop
  · rw [if_pos hle, ok_bind, Span.slice_eq_ok_iff]
    refine exists_congr fun before => exists_congr fun after => and_congr_right' ?_
    rw [Span.mk.injEq]
    omega
  · rw [if_neg hle]
    refine ⟨fun h => (by cases h), ?_⟩
    rintro ⟨before, after, _, hposition, hstop⟩
    omega

theorem position_add_byteSize (h : cursor.remaining = .ok ahead) :
    cursor.position + byteSize ahead = cursor.stop := by
  obtain ⟨_, _, _, hposition, hstop⟩ := remaining_eq_ok_iff.mp h
  rw [hposition, hstop]

theorem skipToPair_group (hr : cursor.remaining = .ok (opener :: ahead)) {s : Text}
    (hs : splitGroup? opener closer 0 ahead = some (s, rest)) :
    cursor.skipToPair opener closer includeClose =
      .ok (true, cursor.moveOver (opener :: if includeClose then s else s.dropLast)) := by
  simp [skipToPair, hr, hs]

theorem skipToPair_unclosed (hr : cursor.remaining = .ok (opener :: ahead))
    (hs : splitGroup? opener closer 0 ahead = none) :
    cursor.skipToPair opener closer includeClose = .ok (false, cursor) := by
  simp [skipToPair, hr, hs]

theorem skipToPair_other (hr : cursor.remaining = .ok ahead) (ho : ahead.head? ≠ some opener) :
    cursor.skipToPair opener closer includeClose = .ok (false, cursor) := by
  cases ahead with
  | nil => simp [skipToPair, hr]
  | cons c ahead =>
    have hc : c ≠ opener := by simpa using ho
    simp [skipToPair, hr, hc]

/-- A skip finds the first even beginning, and stays if there is none. -/
theorem skipToPair_cases (hr : cursor.remaining = .ok ahead) (ho : ahead.head? = some opener)
    (hne : opener ≠ closer) :
    (∃ inside, inside ++ [closer] <+: ahead ∧ FirstEven opener closer (inside ++ [closer]) ∧
      ∀ includeClose, cursor.skipToPair opener closer includeClose =
        .ok (true, cursor.moveOver (if includeClose then inside ++ [closer] else inside))) ∨
    (Uneven opener closer ahead ∧
      ∀ includeClose, cursor.skipToPair opener closer includeClose = .ok (false, cursor)) := by
  obtain ⟨ahead, rfl⟩ := List.head?_eq_some_iff.mp ho
  cases hs : splitGroup? opener closer 0 ahead with
  | none =>
    exact .inr ⟨(splitGroup?_eq_none_iff_uneven hne).mp hs, fun _ => skipToPair_unclosed hr hs⟩
  | some cut =>
    obtain ⟨s, rest⟩ := cut
    obtain ⟨hahead, heven⟩ := (splitGroup?_eq_some_iff_firstEven hne).mp hs
    obtain ⟨inside, rfl, _⟩ := eq_append_of_splitGroup? hs
    refine .inl ⟨opener :: inside, ⟨rest, by rw [hahead]; rfl⟩, heven, fun includeClose => ?_⟩
    rw [skipToPair_group hr hs, List.dropLast_concat]
    cases includeClose <;> rfl

end

/-- A skip over the group that starts ahead ends with the first beginning of the window, the empty
one apart, that has as many closers as openers, or before the last closer of it. If there is none,
if no group starts ahead or if a bracket would pair with itself, the cursor stays. Counted one by
one, no closer is ever taken from no opener. -/
theorem skipToPair_first_even {cursor : Cursor} {ahead : Text} (hr : cursor.remaining = .ok ahead)
    (opener closer : Char) (includeClose : Bool) :
    (ahead.head? = some opener → opener ≠ closer →
      ((∃ next, cursor.skipToPair opener closer includeClose = .ok (true, next)) ↔
        ∃ s, s <+: ahead ∧ s ≠ [] ∧ s.count closer = s.count opener) ∧
      (∀ next, cursor.skipToPair opener closer includeClose = .ok (true, next) →
        ∃ inside, inside ++ [closer] <+: ahead ∧ FirstEven opener closer (inside ++ [closer]) ∧
          next = { cursor with
            position := cursor.position
              + byteSize (if includeClose then inside ++ [closer] else inside) }) ∧
      ((∀ s, s <+: ahead → s ≠ [] → s.count closer ≠ s.count opener) →
        cursor.skipToPair opener closer includeClose = .ok (false, cursor))) ∧
    (ahead.head? ≠ some opener ∨ opener = closer →
      cursor.skipToPair opener closer includeClose = .ok (false, cursor)) ∧
    (cursor.stop < offsetLimit → Word.skipToPair cursor opener closer includeClose =
      cursor.skipToPair opener closer includeClose) := by
  refine ⟨fun ho hne => ?_, ?_, fun hs => ?_⟩
  · rcases skipToPair_cases hr ho hne with ⟨inside, hinside, heven, hskip⟩ | ⟨huneven, hskip⟩
    · have hs : inside ++ [closer] ≠ [] := by simp
      refine ⟨⟨fun _ => ⟨_, hinside, hs, heven.even⟩, fun _ => ⟨_, hskip includeClose⟩⟩, ?_, ?_⟩
      · intro next hnext
        rw [hskip] at hnext
        exact ⟨inside, hinside, heven, (Prod.mk.inj (Except.ok.inj hnext)).2.symm⟩
      · intro hnone
        exact absurd heven.even (hnone _ hinside hs)
    · refine ⟨⟨?_, ?_⟩, ?_, fun _ => hskip includeClose⟩
      · rintro ⟨next, hnext⟩
        rw [hskip] at hnext
        cases hnext
      · rintro ⟨s, hs, hne, heven⟩
        exact absurd heven (huneven s hs hne)
      · intro next hnext
        rw [hskip] at hnext
        cases hnext
  · intro h
    by_cases ho : ahead.head? = some opener
    · obtain rfl := h.resolve_left (not_not_intro ho)
      obtain ⟨ahead, rfl⟩ := List.head?_eq_some_iff.mp ho
      exact skipToPair_unclosed hr splitGroup?_self
    · exact skipToPair_other hr ho
  · rw [← position_add_byteSize hr] at hs
    exact Word.skipToPair_eq_of_remaining hr hs opener closer includeClose

theorem skipToPair_first_even_wide :
    (⟨"é«a«b»»x".toList, 0, 2, 13⟩ : Cursor).remaining = .ok "«a«b»»x".toList ∧
    (∃ next, (⟨"é«a«b»»x".toList, 0, 2, 13⟩ : Cursor).skipToPair '«' '»' false = .ok (true, next)) ∧
    Word.skipToPair ⟨"é«a«b»»x".toList, 0, 2, 13⟩ '«' '»' false =
      .ok (true, ⟨"é«a«b»»x".toList, 0, 10, 13⟩) ∧
    (⟨"é«a«b»»x".toList, 0, 2, 13⟩ : Cursor).skipToPair '«' '«' true =
      .ok (false, ⟨"é«a«b»»x".toList, 0, 2, 13⟩) := by
  have hr : (⟨"é«a«b»»x".toList, 0, 2, 13⟩ : Cursor).remaining = .ok "«a«b»»x".toList := by
    decide +kernel
  obtain ⟨hopens, _, hword⟩ := skipToPair_first_even hr '«' '»' false
  obtain ⟨_, hself, _⟩ := skipToPair_first_even hr '«' '«' true
  refine ⟨hr, (hopens rfl (by decide)).1.mpr ?_, ?_, hself (.inr rfl)⟩
  · exact ⟨"«a«b»»".toList, ⟨['x'], by decide⟩, by decide, by decide⟩
  · rw [hword (by decide)]
    decide +kernel

inductive Completes (cursor next : Cursor) : Op → Prop
  | group {opener closer : Char}
      (h : cursor.skipToPair opener closer true = .ok (true, next)) :
      Completes cursor next (.skipToPair opener closer true)
  | quoted {quote : Char} {rest : Text} (hr : cursor.remaining = .ok (quote :: rest))
      (hq : quote ∈ rest) (h : cursor.skipQuoted = .ok (true, next)) :
      Completes cursor next .skipQuoted

def MovesOver (op : Op) (skipped : Text) : Prop :=
  ∀ (cursor : Cursor) (rest : Text), cursor.remaining = .ok (skipped ++ rest) →
    cursor.step op = .ok (.flag true, cursor.moveOver skipped)

theorem movesOver_group {opener closer : Char} (hne : opener ≠ closer) {inside : Text}
    (h : Enclosed opener closer (opener :: inside)) :
    MovesOver (.skipToPair opener closer true) (opener :: inside) := by
  intro cursor rest hr
  have hskip : cursor.skipToPair opener closer true =
      .ok (true, cursor.moveOver (opener :: inside)) :=
    skipToPair_group hr (splitGroup?_of_enclosed hne h rest)
  rw [step, hskip]
  rfl

theorem movesOver_quoted {quote : Char} (hquote : isQuote quote = true) {inside : Text}
    (h : quote ∉ inside) : MovesOver .skipQuoted (quote :: (inside ++ [quote])) := by
  intro cursor rest hr
  have hcut := splitQuote_append_cons h rest
  rw [List.cons_append, List.append_assoc, List.singleton_append] at hr
  simp [step, skipQuoted, hr, hquote, hcut]

theorem exists_group_of_skipToPair {cursor next : Cursor} {opener closer : Char}
    (h : cursor.skipToPair opener closer true = .ok (true, next)) :
    ∃ inside rest, opener ≠ closer ∧ cursor.remaining = .ok (opener :: (inside ++ rest)) ∧
      Enclosed opener closer (opener :: inside) ∧ next = cursor.moveOver (opener :: inside) := by
  cases hr : cursor.remaining with
  | error fault =>
    rw [skipToPair, hr] at h
    cases h
  | ok ahead =>
    by_cases ho : ahead.head? = some opener
    · obtain ⟨ahead, rfl⟩ := List.head?_eq_some_iff.mp ho
      cases hs : splitGroup? opener closer 0 ahead with
      | none =>
        rw [skipToPair_unclosed hr hs] at h
        cases h
      | some cut =>
        obtain ⟨inside, rest⟩ := cut
        have hne : opener ≠ closer := by
          rintro rfl
          rw [splitGroup?_self] at hs
          cases hs
        obtain ⟨_, _, rfl⟩ := eq_append_of_splitGroup? hs
        rw [skipToPair_group hr hs] at h
        exact ⟨inside, rest, hne, rfl, enclosed_of_splitGroup? hne hs,
          (Prod.mk.inj (Except.ok.inj h)).2.symm⟩
    · rw [skipToPair_other hr ho] at h
      cases h

theorem exists_movesOver {cursor next : Cursor} {op : Op} (h : Completes cursor next op) :
    ∃ skipped rest, cursor.remaining = .ok (skipped ++ rest) ∧ next = cursor.moveOver skipped ∧
      MovesOver op skipped := by
  cases h with
  | group h =>
    obtain ⟨inside, rest, hne, hr, henclosed, rfl⟩ := exists_group_of_skipToPair h
    exact ⟨_, rest, hr, rfl, movesOver_group hne henclosed⟩
  | @quoted quote ahead hr hq h =>
    obtain ⟨inside, rest, rfl, hinside⟩ := List.eq_append_cons_of_mem hq
    have hquote : isQuote quote = true := by
      by_contra hquote
      simp [skipQuoted, hr, hquote] at h
    have hr' : cursor.remaining = .ok (quote :: (inside ++ [quote]) ++ rest) := by
      rw [hr, List.cons_append, List.append_assoc, List.singleton_append]
    refine ⟨_, rest, hr', ?_, movesOver_quoted hquote hinside⟩
    simp only [skipQuoted, hr, hquote, splitQuote_append_cons hinside, ok_bind, if_true,
      pure_eq_ok] at h
    exact (Prod.mk.inj (Except.ok.inj h)).2.symm

theorem exists_remaining {cursor : Cursor} {text : Text}
    (hs : Span.slice ⟨cursor.position, byteSize text⟩ cursor.source = .ok text)
    (hle : cursor.position + byteSize text ≤ cursor.stop)
    (hstop : Boundary cursor.source cursor.stop) :
    ∃ rest, cursor.remaining = .ok (text ++ rest) := by
  obtain ⟨before, after, hsource, hspan⟩ := Span.slice_eq_ok_iff.mp hs
  obtain ⟨window, outside, hwindow, hsize⟩ := hstop
  have hposition : cursor.position = byteSize before := (Span.mk.inj hspan).1
  rw [hsource] at hwindow
  obtain ⟨rest, hrest⟩ : before ++ text <+: window := by
    rcases List.append_eq_append_iff.mp hwindow with ⟨rest, hrest, _⟩ | ⟨rest, hrest, _⟩
    · exact ⟨rest, hrest.symm⟩
    · -- The window ends no earlier than the text.
      have hcut := congrArg byteSize hrest
      simp only [byteSize_append] at hcut
      obtain rfl := byteSize_eq_zero.mp (show byteSize rest = 0 by omega)
      rw [List.append_nil] at hrest
      exact ⟨[], by rw [List.append_nil, hrest]⟩
  refine ⟨rest, remaining_eq_ok_iff.mpr ⟨before, outside, ?_, hposition, ?_⟩⟩
  · rw [hsource, hwindow, ← hrest, List.append_assoc before]
  · rw [← hsize, ← hrest]
    simp only [byteSize_append]
    omega

/-- A skip that is completed moves over the same text wherever it stands in a window, whatever is
before it and after it. -/
theorem completed_anywhere {cursor next : Cursor} {op : Op} (h : Completes cursor next op) :
    ∃ skipped, Span.slice ⟨cursor.position, byteSize skipped⟩ cursor.source = .ok skipped ∧
      next.position = cursor.position + byteSize skipped ∧
      ∀ other : Cursor, Span.slice ⟨other.position, byteSize skipped⟩ other.source = .ok skipped →
        other.position + byteSize skipped ≤ other.stop → Boundary other.source other.stop →
        other.step op = .ok (.flag true, { other with
          position := other.position + (next.position - cursor.position) }) := by
  obtain ⟨skipped, rest, hr, rfl, hmoves⟩ := exists_movesOver h
  obtain ⟨before, after, hsource, hposition, _⟩ := remaining_eq_ok_iff.mp hr
  refine ⟨skipped, ?_, rfl, fun other hother hle hstop => ?_⟩
  · refine Span.slice_eq_ok_iff.mpr ⟨before, rest ++ after, ?_, by rw [hposition]⟩
    rw [hsource]
    simp
  · obtain ⟨rest', hr'⟩ := exists_remaining hother hle hstop
    have hsize : (cursor.moveOver skipped).position - cursor.position = byteSize skipped :=
      Nat.add_sub_cancel_left _ _
    rw [hmoves other rest' hr', hsize]
    rfl

theorem completed_anywhere_window_end :
    (⟨"x(é()).".toList, 0, 1, 8⟩ : Cursor).skipToPair '(' ')' true =
      .ok (true, ⟨"x(é()).".toList, 0, 7, 8⟩) ∧
    (⟨"['(é()))".toList, 1, 2, 8⟩ : Cursor).step (.skipToPair '(' ')' true) =
      .ok (.flag true, ⟨"['(é()))".toList, 1, 8, 8⟩) ∧
    (⟨"\"é\" x".toList, 0, 0, 6⟩ : Cursor).skipQuoted =
      .ok (true, ⟨"\"é\" x".toList, 0, 4, 6⟩) ∧
    (⟨"a\"é\"\"".toList, 0, 1, 5⟩ : Cursor).step .skipQuoted =
      .ok (.flag true, ⟨"a\"é\"\"".toList, 0, 5, 5⟩) := by
  have hgroup : (⟨"x(é()).".toList, 0, 1, 8⟩ : Cursor).skipToPair '(' ')' true =
      .ok (true, ⟨"x(é()).".toList, 0, 7, 8⟩) := by
    decide +kernel
  have hquoted : (⟨"\"é\" x".toList, 0, 0, 6⟩ : Cursor).skipQuoted =
      .ok (true, ⟨"\"é\" x".toList, 0, 4, 6⟩) := by
    decide +kernel
  have hquote : (⟨"\"é\" x".toList, 0, 0, 6⟩ : Cursor).remaining = .ok "\"é\" x".toList := by
    decide +kernel
  obtain ⟨s, hs, hsize, hgroups⟩ := completed_anywhere (.group hgroup)
  obtain ⟨t, ht, htsize, hruns⟩ := completed_anywhere (.quoted hquote (by decide) hquoted)
  -- The text under either move, from its size.
  rw [show byteSize s = 6 by simp only at hsize; omega] at hs
  rw [show byteSize t = 4 by simp only at htsize; omega] at ht
  obtain rfl : s = "(é())".toList := by
    rw [show Span.slice ⟨1, 6⟩ "x(é()).".toList = .ok "(é())".toList by decide +kernel] at hs
    exact (Except.ok.inj hs).symm
  obtain rfl : t = "\"é\"".toList := by
    rw [show Span.slice ⟨0, 4⟩ "\"é\" x".toList = .ok "\"é\"".toList by decide +kernel] at ht
    exact (Except.ok.inj ht).symm
  refine ⟨hgroup, ?_, hquoted, ?_⟩
  · refine hgroups ⟨"['(é()))".toList, 1, 2, 8⟩ (by decide +kernel) (by decide) ?_
    exact ⟨"['(é())".toList, [')'], by decide, by decide⟩
  · refine hruns ⟨"a\"é\"\"".toList, 0, 1, 5⟩ (by decide +kernel) (by decide) ?_
    exact ⟨"a\"é\"".toList, ['"'], by decide, by decide⟩

end Cursor

end Stencil
