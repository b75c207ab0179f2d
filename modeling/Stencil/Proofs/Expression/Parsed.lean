import Stencil.Proofs.Expression.Refusal
import Stencil.Proofs.Token

/-!
# Expressions that texts are read as

An expression is read from a text by itself or found in a template. Either way it is
read from a body, the text in its outer braces or the whole text if it has none, and
its items are those of the entries that the body is cut into.
-/

set_option autoImplicit false

namespace Stencil

namespace Expression

def window (text : Text) : Except Fault Span := do
  let whole ← Span.ofText text
  if isBraced text then whole.shrink 1 else .ok whole

inductive Parsed : Expression → Prop
  | alone {text : Text} {e : Expression} (h : parse text = .ok e) : Parsed e
  | within {template : Text} {tokens : List Token} {e : Expression}
      (h : tokenize template = .ok tokens) (he : .expression e ∈ tokens) : Parsed e

theorem exists_window {text : Text} (hs : byteSize text < offsetLimit) :
    ∃ body bodySpan, window text = .ok bodySpan ∧ (Place.start text).slice bodySpan = .ok body ∧
      parse text = ofBody bodySpan.start body text ⟨0, byteSize text⟩ := by
  by_cases h : Enclosed '{' '}' text
  · obtain ⟨inside, rfl⟩ := h.exists_inside (by decide)
    refine ⟨inside, ⟨0 + 1, byteSize inside⟩, ?_, ?_, ?_⟩
    · rw [window, Span.ofText, if_pos hs]
      simp only [bind, Except.bind, if_pos (isBraced_iff.mpr h), shrink_braced]
    · have hslice := Place.slice_append 0 ['{'] inside ['}']
      exact hslice
    · rw [parse_eq_ofGroup h hs, ofGroup_braced]
  · refine ⟨text, ⟨0, byteSize text⟩, ?_, Place.slice_whole text, parse_eq_ofBody h hs⟩
    rw [window, Span.ofText, if_pos hs]
    simp only [bind, Except.bind, if_neg (fun hb => h (isBraced_iff.mp hb))]

theorem Parsed.exists_ofBody {e : Expression} (h : Parsed e) :
    ∃ offset body source span, ofBody offset body source span = .ok e := by
  cases h with
  | alone h =>
    obtain ⟨body, bodySpan, _, _, hparse⟩ := exists_window (byteSize_lt_of_parse h)
    exact ⟨_, body, _, _, hparse ▸ h⟩
  | within h he =>
    obtain ⟨position, group, _, hgroup⟩ := Token.exists_ofGroup_of_mem h he
    exact ⟨_, _, _, _, hgroup⟩

/-- The items of an expression are those of entries, and they are of one kind. -/
theorem Parsed.items {e : Expression} (h : Parsed e) : isMixed e.items = false ∧
    ∀ item ∈ e.items, ∃ segment : Segment, Segment.Entry segment.text ∧
      item = Item.ofSegment segment := by
  obtain ⟨offset, body, source, span, hbody⟩ := h.exists_ofBody
  obtain ⟨segments, hsegments, hmixed, rfl⟩ := ofBody_eq_ok_iff.mp hbody
  refine ⟨hmixed, fun item hi => ?_⟩
  obtain ⟨segment, hsegment, rfl⟩ := List.mem_map.mp hi
  exact ⟨segment, Segment.entry_of_ofLexemes hsegments segment hsegment, rfl⟩

end Expression

end Stencil
