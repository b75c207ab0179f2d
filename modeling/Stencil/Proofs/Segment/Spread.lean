import Mathlib.Data.List.Chain
import Stencil.Proofs.Segment.Slice

/-!
# How segments are spread over a body

A body is separators and segments in turn. A separator is made of blanks and
commas, and one between two segments has a comma in it; a segment begins and ends
in characters that are no blanks. So the segments stand in order and apart from
each other, and what they leave out of the body are separators.
-/

set_option autoImplicit false

namespace Stencil

def textBetween (source : Text) (start stop : Nat) : Except Fault Text := do
  (← Span.between start stop).slice source

theorem textBetween_append (before text after : Text) :
    textBetween (before ++ text ++ after) (byteSize before) (byteSize before + byteSize text) =
      .ok text := by
  have hslice := Place.slice_append 0 before text after
  rw [Nat.zero_add] at hslice
  rw [textBetween, Span.between_add]
  exact hslice

def Separator (t : Text) : Prop := ∀ c ∈ t, isBlank c = true ∨ c = ','

theorem Blanks.separator {t : Text} (h : Blanks t) : Separator t :=
  fun c hc => .inl (h c hc)

theorem separator_comma : Separator [','] :=
  fun _ hc => .inr (List.mem_singleton.mp hc)

theorem Separator.append {s t : Text} (hs : Separator s) (ht : Separator t) :
    Separator (s ++ t) := by
  intro c hc
  rcases List.mem_append.mp hc with hc | hc
  · exact hs c hc
  · exact ht c hc

def gaps (start : Nat) : List Span → Nat → List (Nat × Nat)
  | [], stop => [(start, stop)]
  | span :: rest, stop => (start, span.start) :: gaps span.stop rest stop

/-- Spans in order from one offset to another, each of a text without outer blanks, with
separators before, between and after them. -/
structure Spread (source : Text) (start stop : Nat) (spans : List Span) : Prop where
  inside : ∀ span ∈ spans, start ≤ span.start ∧ span.start < span.stop ∧ span.stop ≤ stop
  ordered : spans.Pairwise fun s t => s.stop ≤ t.start
  filled : ∀ span ∈ spans, ∃ text, span.slice source = .ok text ∧ Trimmed text
  gaps : ∀ gap ∈ gaps start spans stop,
    ∃ text, textBetween source gap.1 gap.2 = .ok text ∧ Separator text
  apart : spans.IsChain fun s t => ∃ text, textBetween source s.stop t.start = .ok text ∧ ',' ∈ text

theorem Spread.cons {source : Text} {start stop : Nat} {span : Span} {spans : List Span}
    (hle : start ≤ span.start) (hspan : span.start < span.stop) (hstop : span.stop ≤ stop)
    (hfilled : ∃ text, span.slice source = .ok text ∧ Trimmed text)
    (hgap : ∃ text, textBetween source start span.start = .ok text ∧ Separator text)
    (hcomma : ∀ next ∈ spans.head?,
      ∃ text, textBetween source span.stop next.start = .ok text ∧ ',' ∈ text)
    (h : Spread source span.stop stop spans) : Spread source start stop (span :: spans) where
  inside := by
    refine List.forall_mem_cons.mpr ⟨⟨hle, hspan, hstop⟩, fun next hn => ?_⟩
    have := h.inside next hn
    omega
  ordered := List.pairwise_cons.mpr ⟨fun next hn => (h.inside next hn).1, h.ordered⟩
  filled := List.forall_mem_cons.mpr ⟨hfilled, h.filled⟩
  gaps := List.forall_mem_cons.mpr ⟨hgap, h.gaps⟩
  apart := List.isChain_cons.mpr ⟨hcomma, h.apart⟩

namespace Segment

open Lexeme (spell)

/-- Separators and segments in turn, from an offset on. `parted` asks for a comma before the
first segment. -/
inductive Woven : Bool → Nat → Text → List Segment → Prop
  | last {parted : Bool} {offset : Nat} {gap : Text} (hg : Separator gap) :
      Woven parted offset gap []
  | next {parted : Bool} {offset : Nat} {gap text rest : Text} {segments : List Segment}
      (hg : Separator gap) (hc : parted = true → ',' ∈ gap) (hne : text ≠ []) (ht : Trimmed text)
      (hr : Woven true (offset + byteSize gap + byteSize text) rest segments) :
      Woven parted offset (gap ++ text ++ rest)
        (⟨text, ⟨offset + byteSize gap, byteSize text⟩⟩ :: segments)

theorem Woven.prepend {parted : Bool} {offset : Nat} {gap t : Text} {segments : List Segment}
    (hg : Separator gap) (hc : parted = true → ',' ∈ gap)
    (h : Woven false (offset + byteSize gap) t segments) :
    Woven parted offset (gap ++ t) segments := by
  cases h with
  | last hl => exact .last (hg.append hl)
  | @next _ _ gap' text rest segments hg' _ hne ht hr =>
    rw [Nat.add_assoc offset, ← byteSize_append] at hr ⊢
    rw [← List.append_assoc, ← List.append_assoc]
    exact .next (hg.append hg') (fun hp => List.mem_append_left _ (hc hp)) hne ht hr

theorem Woven.piece {offset : Nat} {piece tail : Text} {segments : List Segment}
    (h : ∀ parted start w, Blanks w → start + byteSize w = offset + byteSize piece →
      Woven parted start (w ++ tail) segments) :
    Woven false offset (piece ++ tail) (ofPiece offset piece ++ segments) := by
  obtain ⟨w, hw, hsplit⟩ := eq_append_trim piece
  have hlead := blanks_leadingBlanks piece
  by_cases ht : trim piece = []
  · have hblank : Blanks piece := by
      rw [hsplit, ht, List.append_nil]
      exact blanks_append_iff.mpr ⟨hlead, hw⟩
    rw [ofPiece_blank ht]
    exact h false offset piece hblank rfl
  · have hrest := h true (offset + byteSize (leadingBlanks piece) + byteSize (trim piece)) w hw
      (by conv_rhs => rw [hsplit, byteSize_append, byteSize_append, ← Nat.add_assoc,
            ← Nat.add_assoc])
    rw [ofPiece_entry ht]
    conv in piece ++ tail => rw [hsplit, List.append_assoc]
    exact .next hlead.separator (by simp) ht (trimmed_trim piece) hrest

theorem woven_ofPieces (offset : Nat) (runs : List (List Lexeme)) :
    Woven false offset ([','].intercalate (runs.map spell)) (ofPieces offset runs) := by
  induction runs generalizing offset with
  | nil => exact .last (by simp [Separator])
  | cons run rest ih =>
    cases rest with
    | nil =>
      have hpiece := @Woven.piece offset (spell run) [] [] fun parted start w hw _ => by
        rw [List.append_nil]
        exact .last hw.separator
      simpa [ofPieces] using hpiece
    | cons next rest =>
      have ih := ih (offset + byteSize (spell run) + 1)
      rw [List.map_cons, List.intercalate_cons_of_ne_nil (by simp), List.append_assoc, ofPieces]
      -- The comma after the piece is in the gap before what follows.
      refine Woven.piece fun parted start w hw hstart => ?_
      rw [← List.append_assoc]
      refine Woven.prepend (hw.separator.append separator_comma) (by simp) ?_
      rwa [byteSize_append, ← Nat.add_assoc, hstart]

/-- Separators and segments in turn, inside a source, are spread over where they stand. -/
theorem Woven.spread {parted : Bool} {offset : Nat} {t : Text} {segments : List Segment}
    (h : Woven parted offset t segments) (before after : Text) (hb : offset = byteSize before) :
    Spread (before ++ t ++ after) offset (offset + byteSize t) (segments.map span) ∧
      (parted = true → ∀ next ∈ (segments.map span).head?, ∃ text,
        textBetween (before ++ t ++ after) offset next.start = .ok text ∧ ',' ∈ text) := by
  induction h generalizing before with
  | @last parted offset gap hg =>
    subst hb
    refine ⟨⟨by simp, .nil, by simp, ?_, .nil⟩, by simp⟩
    intro stretch hs
    rw [List.mem_singleton.mp hs]
    exact ⟨gap, textBetween_append before gap after, hg⟩
  | @next parted offset gap text rest segments hg hc hne ht hr ih =>
    subst hb
    -- The same source, cut before the segment and cut after it.
    have hgap : before ++ (gap ++ text ++ rest) ++ after =
        before ++ gap ++ (text ++ rest ++ after) := by simp
    have htext : before ++ (gap ++ text ++ rest) ++ after =
        before ++ gap ++ text ++ (rest ++ after) := by simp
    have hrest : before ++ (gap ++ text ++ rest) ++ after =
        before ++ gap ++ text ++ rest ++ after := by simp
    have hbetween : textBetween (before ++ (gap ++ text ++ rest) ++ after) (byteSize before)
        (byteSize before + byteSize gap) = .ok gap := by rw [hgap, textBetween_append]
    have hslice : Span.slice ⟨byteSize before + byteSize gap, byteSize text⟩
        (before ++ (gap ++ text ++ rest) ++ after) = .ok text := by
      have h := Place.slice_append 0 (before ++ gap) text (rest ++ after)
      rwa [Nat.zero_add, byteSize_append, ← htext] at h
    have hpos : 0 < byteSize text := Nat.pos_of_ne_zero fun h0 => hne (byteSize_eq_zero.mp h0)
    obtain ⟨hspread, hnext⟩ := ih (before ++ gap ++ text) (by simp [Nat.add_assoc])
    rw [← hrest] at hspread hnext
    have hstop : byteSize before + byteSize gap + byteSize text + byteSize rest =
        byteSize before + byteSize (gap ++ text ++ rest) := by simp [Nat.add_assoc]
    rw [hstop] at hspread
    refine ⟨Spread.cons (Nat.le_add_right _ _) (Nat.lt_add_of_pos_right hpos) ?_ ⟨text, hslice, ht⟩
      ⟨gap, hbetween, hg⟩ (hnext rfl) hspread, fun hparted next hn => ?_⟩
    · rw [← hstop]
      exact Nat.le_add_right _ _
    · obtain rfl : _ = next := by simpa using hn
      exact ⟨gap, hbetween, hc hparted⟩

/-- The segments of a body are spread over it, wherever in a source it stands. -/
theorem spread_of_ofLexemes {before body after : Text} {segments : List Segment}
    (h : ofLexemes (byteSize before) (Lexeme.read closer? body) = .ok segments) :
    Spread (before ++ body ++ after) (byteSize before) (byteSize before + byteSize body)
      (segments.map span) := by
  obtain ⟨_, rfl⟩ := ofLexemes_eq_ok h
  have hwoven := woven_ofPieces (byteSize before) (pieces (Lexeme.read closer? body))
  rw [spell_pieces, Lexeme.spell_read] at hwoven
  exact (hwoven.spread before after rfl).1

end Segment

end Stencil
