import Stencil.Proofs.Segment.Entry

/-!
# Segments are slices of their source

A slice succeeds on exactly the spans that fall between characters of what lies
ahead. So a slice of a slice is a slice of the source, and the span of a segment
slices the source that was split to the text of the segment.
-/

set_option autoImplicit false

namespace Stencil

def Boundary (text : Text) (offset : Nat) : Prop := ∃ s t, text = s ++ t ∧ byteSize s = offset

namespace Place

theorem readTo_eq_ok_iff {place next : Place} {stop : Nat} {run : Text} :
    place.readTo stop = .ok (run, next) ↔ place.ahead = run ++ next.ahead ∧
      stop = place.offset + byteSize run ∧ next.offset = stop := by
  obtain ⟨offset, ahead⟩ := place
  obtain ⟨offset', rest⟩ := next
  constructor
  · intro h
    by_cases hle : offset ≤ stop
    · rw [readTo, Span.between, if_pos hle] at h
      simp only [bind, Except.bind, pure, Except.pure] at h
      split at h
      next s t hs =>
        obtain ⟨rfl, hsize⟩ := splitBytes?_eq_some.mp hs
        obtain ⟨rfl, rfl, rfl⟩ : s = run ∧ stop = offset' ∧ t = rest := by simpa using h
        refine ⟨rfl, ?_, rfl⟩
        simp only
        omega
      next => cases h
    · rw [readTo, Span.between, if_neg hle] at h
      cases h
  · rintro ⟨hahead, hstop, hoffset⟩
    simp only at hahead hstop hoffset
    rw [hahead, hoffset, hstop]
    exact readTo_append offset run rest

theorem slice_eq_ok_iff {place : Place} {span : Span} {text : Text} :
    place.slice span = .ok text ↔ ∃ before after, place.ahead = before ++ text ++ after ∧
      span = ⟨place.offset + byteSize before, byteSize text⟩ := by
  constructor
  · intro h
    rw [slice] at h
    rcases hr : place.readTo span.start with fault | ⟨before, first⟩
    · rw [hr] at h
      cases h
    rcases hs : first.readTo span.stop with fault | ⟨run, next⟩
    · simp only [hr, hs, bind, Except.bind] at h
      cases h
    simp only [hr, hs, bind, Except.bind] at h
    obtain rfl := Except.ok.inj h
    obtain ⟨hahead, hstart, hfirst⟩ := readTo_eq_ok_iff.mp hr
    obtain ⟨hrun, hstop, _⟩ := readTo_eq_ok_iff.mp hs
    refine ⟨before, next.ahead, by rw [hahead, hrun, List.append_assoc], ?_⟩
    obtain ⟨start, length⟩ := span
    rw [Span.stop] at hstop
    simp only [Span.mk.injEq] at *
    omega
  · rintro ⟨before, after, hahead, rfl⟩
    obtain ⟨offset, ahead⟩ := place
    obtain rfl : ahead = _ := hahead
    exact slice_append offset before text after

theorem slice_whole (text : Text) : (start text).slice ⟨0, byteSize text⟩ = .ok text := by
  have h := slice_append 0 [] text []
  rwa [List.nil_append, List.append_nil, byteSize_nil] at h

end Place

/-- A slice of a source tells what stands in the source before it and after it. -/
theorem Span.slice_eq_ok_iff {span : Span} {source text : Text} :
    span.slice source = .ok text ↔ ∃ before after, source = before ++ text ++ after ∧
      span = ⟨byteSize before, byteSize text⟩ := by
  rw [Span.slice, Place.slice_eq_ok_iff]
  simp only [Place.start, Nat.zero_add]

namespace Segment

open Lexeme (spell)

theorem exists_of_ofPiece {offset : Nat} {piece : Text} {segment : Segment}
    (h : segment ∈ ofPiece offset piece) :
    ∃ before after, piece = before ++ segment.text ++ after ∧
      segment.span = ⟨offset + byteSize before, byteSize segment.text⟩ := by
  by_cases ht : trim piece = []
  · simp [ofPiece_blank ht] at h
  · rw [ofPiece_entry ht] at h
    rw [List.mem_singleton.mp h]
    obtain ⟨w, _, hp⟩ := eq_append_trim piece
    exact ⟨leadingBlanks piece, w, hp, rfl⟩

theorem exists_of_ofPieces {offset : Nat} {runs : List (List Lexeme)} {segment : Segment}
    (h : segment ∈ ofPieces offset runs) :
    ∃ before after, [','].intercalate (runs.map spell) = before ++ segment.text ++ after ∧
      segment.span = ⟨offset + byteSize before, byteSize segment.text⟩ := by
  induction runs generalizing offset with
  | nil => simp [ofPieces] at h
  | cons run rest ih =>
    by_cases hr : rest = []
    · subst hr
      rw [ofPieces, ofPieces, List.append_nil] at h
      simpa using exists_of_ofPiece h
    rw [List.map_cons, List.intercalate_cons_of_ne_nil (by simpa using hr)]
    rcases List.mem_append.mp h with h | h
    · obtain ⟨before, after, hrun, hspan⟩ := exists_of_ofPiece h
      exact ⟨before, after ++ ([','] ++ [','].intercalate (rest.map spell)), by simp [hrun], hspan⟩
    · obtain ⟨before, after, hrest, hspan⟩ := ih h
      refine ⟨spell run ++ [','] ++ before, after, by rw [hrest]; simp, ?_⟩
      rw [hspan, byteSize_append, byteSize_append, show byteSize [','] = 1 from rfl]
      simp only [Span.mk.injEq, and_true]
      omega

theorem spell_pieces (lexemes : List Lexeme) :
    [','].intercalate ((pieces lexemes).map spell) = spell lexemes := by
  induction lexemes with
  | nil => rfl
  | cons lexeme rest ih =>
    have hne : pieces rest ≠ [] := List.splitOn_ne_nil _ rest
    rw [Lexeme.spell_cons, ← ih]
    by_cases hc : lexeme = .single ','
    · subst hc
      rw [pieces_comma, List.map_cons, List.intercalate_cons_of_ne_nil (by simpa using hne)]
      rfl
    · rw [pieces_cons hc]
      obtain ⟨run, runs, hp⟩ := List.exists_cons_of_ne_nil hne
      rw [hp, List.modifyHead_cons]
      cases runs with
      | nil => simp
      | cons next runs => simp [List.intercalate_cons_cons]

/-- The span of a segment slices what was split to its text. -/
theorem slice_of_splitWithin {source : Place} {window : Span} {segments : List Segment}
    (h : splitWithin source window = .ok segments) :
    ∀ segment ∈ segments, source.slice segment.span = .ok segment.text := by
  intro segment hs
  obtain ⟨body, hbody, hsegments⟩ := exists_slice_of_splitWithin h
  obtain ⟨before, after, hahead, hwindow⟩ := Place.slice_eq_ok_iff.mp hbody
  obtain ⟨_, rfl⟩ := ofLexemes_eq_ok hsegments
  obtain ⟨before', after', hpiece, hspan⟩ := exists_of_ofPieces hs
  rw [spell_pieces, Lexeme.spell_read] at hpiece
  refine Place.slice_eq_ok_iff.mpr ⟨before ++ before', after' ++ after, ?_, ?_⟩
  · rw [hahead, hpiece]
    simp
  · rw [hspan, hwindow, byteSize_append, Nat.add_assoc]

/-- Every segment is an entry, and its span is as long as its text. -/
theorem entry_of_splitWithin {source : Place} {window : Span} {segments : List Segment}
    (h : splitWithin source window = .ok segments) :
    ∀ segment ∈ segments, Entry segment.text ∧ segment.span.length = byteSize segment.text := by
  intro segment hs
  obtain ⟨body, _, hsegments⟩ := exists_slice_of_splitWithin h
  have hentry := entry_of_ofLexemes hsegments segment hs
  obtain ⟨_, rfl⟩ := ofLexemes_eq_ok hsegments
  obtain ⟨_, _, _, hspan⟩ := exists_of_ofPieces hs
  exact ⟨hentry, congrArg Span.length hspan⟩

theorem split_eq_ofLexemes {t : Text} (h : byteSize t < offsetLimit) :
    split t = ofLexemes 0 (Lexeme.read closer? t) := by
  rw [split, Span.ofText, if_pos h]
  exact splitWithin_of_slice (Place.slice_whole t)

end Segment

end Stencil
