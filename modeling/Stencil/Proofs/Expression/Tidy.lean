import Stencil.Proofs.Expression.Parsed
import Stencil.Proofs.Item.Tidy

/-!
# Expressions without blank parts

The items of an expression that is read are tidy. They are read from segments that
the splitter hands over, and whenever a marker is found in such a segment, what
follows it is more than blanks: a condition is never left out for being empty.
-/

set_option autoImplicit false

namespace Stencil

namespace Expression

theorem tidy_items :
    (∀ e : Expression, Parsed e → ∀ item ∈ e.items, item.Tidy) ∧
    ∀ (source : Place) (span : Span) (segments : List Segment),
      Segment.splitWithin source span = .ok segments → ∀ segment ∈ segments,
      ∀ (colon : Option Nat) (marker : Span),
        Item.separators false segment.span.start segment.text
          (Lexeme.read closer? segment.text) = .ok ⟨colon, some marker⟩ →
        ∃ before after, segment.text = before ++ after ∧
          marker.stop = segment.span.start + byteSize before ∧ trim after ≠ [] ∧
          ∃ item, Item.read segment = .ok item ∧ item.condition = some (trim after) := by
  refine ⟨fun e h item hi => ?_, fun source span segments h segment hs colon marker hfound => ?_⟩
  · obtain ⟨segment, hentry, rfl⟩ := h.items.2 item hi
    exact Item.tidy_ofSegment hentry
  · obtain ⟨body, _, hsegments⟩ := Segment.exists_slice_of_splitWithin h
    have hentry := Segment.entry_of_ofLexemes hsegments segment hs
    obtain ⟨_, rfl⟩ := Segment.ofLexemes_eq_ok hsegments
    obtain ⟨_, _, _, hspan⟩ := Segment.exists_of_ofPieces hs
    exact Item.exists_condition hentry (by rw [hspan]) hfound

theorem tidy_items_empty_values :
    (∃ e, tokenize "é\x7bk: if\u3000(b if ),l: ?\x7d".toList =
        .ok [.text ['é'] ⟨0, 2⟩, .expression e] ∧
      e.items.map Item.value = [[], []] ∧ ∀ item ∈ e.items, item.Tidy) ∧
    ∃ before after, "k: if\u3000(b if )".toList = before ++ after ∧
      (⟨5, 6⟩ : Span).stop = 3 + byteSize before ∧ trim after ≠ [] ∧
      ∃ item, Item.read ⟨"k: if\u3000(b if )".toList, ⟨3, 15⟩⟩ = .ok item ∧
        item.condition = some (trim after) := by
  have htokenize : tokenize "é\x7bk: if\u3000(b if ),l: ?\x7d".toList =
      .ok [.text ['é'] ⟨0, 2⟩, .expression
        ⟨[⟨[], some ['k'], some "(b if )".toList, ⟨3, 15⟩⟩,
          ⟨[], some ['l'], some existence, ⟨19, 4⟩⟩], ⟨2, 22⟩,
          "\x7bk: if\u3000(b if ),l: ?\x7d".toList⟩] := by
    decide +kernel
  have hsplit : Segment.splitWithin (Place.start "é\x7bk: if\u3000(b if ),l: ?\x7d".toList)
      ⟨3, 20⟩ = .ok [⟨"k: if\u3000(b if )".toList, ⟨3, 15⟩⟩, ⟨"l: ?".toList, ⟨19, 4⟩⟩] := by
    decide +kernel
  have hfound : Item.separators false 3 "k: if\u3000(b if )".toList
      (Lexeme.read closer? "k: if\u3000(b if )".toList) = .ok ⟨some 4, some ⟨5, 6⟩⟩ := by
    decide +kernel
  exact ⟨⟨_, htokenize, rfl, tidy_items.1 _ (.within htokenize (by simp))⟩,
    tidy_items.2 _ _ _ hsplit _ List.mem_cons_self _ _ hfound⟩

end Expression

end Stencil
