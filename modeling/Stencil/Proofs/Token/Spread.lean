import Stencil.Proofs.Expression.Render
import Stencil.Proofs.Segment.Spread
import Stencil.Proofs.Token.Tiling

/-!
# Items are spread over the body of their expression

The body of an expression is what stands in its outer braces, or all of it if it has
none. The spans of its items lie in the body in order, and the rest of the body is
blanks and commas.
-/

set_option autoImplicit false

namespace Stencil

namespace Expression

def bodySpan (e : Expression) : Except Fault Span :=
  if isBraced e.source then e.span.shrink 1 else .ok e.span

def Orderly (source : Text) (e : Expression) : Prop :=
  e.span.slice source = .ok e.source ∧ ∃ body, e.bodySpan = .ok body ∧
    Spread source body.start body.stop (e.items.map Item.span)

theorem spread_of_ofBody {before body after source : Text} {span : Span} {e : Expression}
    (h : ofBody (byteSize before) body source span = .ok e) :
    Spread (before ++ body ++ after) (byteSize before) (byteSize before + byteSize body)
      (e.items.map Item.span) := by
  obtain ⟨segments, hsegments, _, rfl⟩ := ofBody_eq_ok_iff.mp h
  have hspans : (segments.map Item.ofSegment).map Item.span = segments.map Segment.span := by
    simp only [List.map_map, Function.comp_def, Item.span_ofSegment]
  rw [hspans]
  exact Segment.spread_of_ofLexemes hsegments

theorem orderly_of_ofGroup {before group after : Text} {e : Expression}
    (h : Enclosed '{' '}' group) (he : ofGroup (byteSize before) group = .ok e) :
    Orderly (before ++ group ++ after) e := by
  obtain ⟨hspan, hsource⟩ := span_source_of_ofBody he
  have hslice := Place.slice_append 0 before group after
  rw [Nat.zero_add] at hslice
  obtain ⟨inside, rfl⟩ := h.exists_inside (by decide)
  have hbody := shrink_braced (byteSize before) inside
  rw [ofGroup_braced] at he
  have hsize : byteSize (before ++ ['{']) = byteSize before + 1 := by
    rw [byteSize_append]
    rfl
  rw [← hsize] at he hbody
  have hspread := @spread_of_ofBody _ _ ('}' :: after) _ _ _ he
  constructor
  · rw [hspan, hsource]
    exact hslice
  · refine ⟨_, by rw [bodySpan, hsource, if_pos (isBraced_iff.mpr h), hspan]; exact hbody, ?_⟩
    simpa [Span.stop] using hspread

theorem orderly_of_parse {text : Text} {e : Expression} (h : parse text = .ok e) :
    Orderly text e := by
  have hs := byteSize_lt_of_parse h
  by_cases henclosed : Enclosed '{' '}' text
  · rw [parse_eq_ofGroup henclosed hs] at h
    have horderly := @orderly_of_ofGroup [] text [] e henclosed h
    rwa [List.nil_append, List.append_nil] at horderly
  · rw [parse_eq_ofBody henclosed hs] at h
    obtain ⟨hspan, hsource⟩ := span_source_of_ofBody h
    have hspread := @spread_of_ofBody [] text [] text _ e h
    have hbody : e.bodySpan = .ok ⟨0, byteSize text⟩ := by
      rw [bodySpan, hsource, if_neg fun hb => henclosed (isBraced_iff.mp hb), hspan]
    have hslice := Place.slice_append 0 [] text []
    rw [List.nil_append, List.append_nil] at hspread hslice
    refine ⟨?_, _, hbody, hspread⟩
    rw [hspan, hsource]
    exact hslice

end Expression

namespace Token

/-- The items of an expression stand in order in its body, with separators around them, whether
the expression is one of a template or a text by itself. -/
theorem orderly_items :
    (∀ (template : Text) (tokens : List Token) (e : Expression),
      tokenize template = .ok tokens → expression e ∈ tokens → e.Orderly template) ∧
    ∀ (text : Text) (e : Expression), Expression.parse text = .ok e → e.Orderly text := by
  refine ⟨fun template tokens e h he => ?_, fun text e h => Expression.orderly_of_parse h⟩
  obtain ⟨before, group, after, rfl, henclosed, hgroup⟩ := exists_group_of_mem h he
  exact Expression.orderly_of_ofGroup henclosed hgroup

theorem orderly_items_blank_pieces :
    (∃ e, tokenize "é\x7b , k: (b, c)? ,\u3000,é:\u3000'd,\x7d".toList =
        .ok [text "é".toList ⟨0, 2⟩, expression e] ∧
      e.items.map Item.span = [⟨6, 10⟩, ⟨22, 9⟩] ∧
      e.Orderly "é\x7b , k: (b, c)? ,\u3000,é:\u3000'd,\x7d".toList) ∧
    ∃ e, Expression.parse "\x7ba\x7d,, \x7bé\x7d ".toList = .ok e ∧
      e.items.map Item.span = [⟨0, 3⟩, ⟨6, 4⟩] ∧ e.Orderly "\x7ba\x7d,, \x7bé\x7d ".toList := by
  have htokenize : tokenize "é\x7b , k: (b, c)? ,\u3000,é:\u3000'd,\x7d".toList =
      .ok [text "é".toList ⟨0, 2⟩, expression
        ⟨[⟨"(b, c)".toList, some ['k'], some existence, ⟨6, 10⟩⟩,
          ⟨"'d,".toList, some ['é'], none, ⟨22, 9⟩⟩], ⟨2, 30⟩,
          "\x7b , k: (b, c)? ,\u3000,é:\u3000'd,\x7d".toList⟩] := by
    decide +kernel
  have hparse : Expression.parse "\x7ba\x7d,, \x7bé\x7d ".toList = .ok
      ⟨[⟨"\x7ba\x7d".toList, none, none, ⟨0, 3⟩⟩, ⟨"\x7bé\x7d".toList, none, none, ⟨6, 4⟩⟩],
        ⟨0, 11⟩, "\x7ba\x7d,, \x7bé\x7d ".toList⟩ := by
    decide +kernel
  exact ⟨⟨_, htokenize, rfl, orderly_items.1 _ _ _ htokenize (by simp)⟩,
    _, hparse, rfl, orderly_items.2 _ _ hparse⟩

end Token

end Stencil
