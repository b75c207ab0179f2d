import Stencil.Proofs.Expression.Render
import Stencil.Proofs.Token.Tiling

/-!
# Canonical forms as templates

The canonical form of an expression of a template is a template of one expression,
with the same items. The exception is an item that has a question mark on its value
and a condition of its own: its form has the condition only.
-/

set_option autoImplicit false

namespace Stencil

namespace Token

open Lexeme (spell)
open Segment (pieces ofPieces)

theorem exists_body_of_mem {template : Text} {tokens : List Token} {e : Expression}
    (h : tokenize template = .ok tokens) (he : expression e ∈ tokens) :
    ∃ position inside, Enclosed '{' '}' ('{' :: inside ++ ['}']) ∧
      Expression.ofGroup position ('{' :: inside ++ ['}']) = .ok e ∧
      ∀ segment ∈ ofPieces (position + 1) (pieces (Lexeme.read closer? inside)),
        segment.span.slice template = .ok segment.text := by
  obtain ⟨before, group, after, rfl, henclosed, hgroup⟩ := exists_group_of_mem h he
  obtain ⟨inside, rfl⟩ := henclosed.exists_inside (by decide)
  refine ⟨byteSize before, inside, henclosed, hgroup, ?_⟩
  intro segment hs
  obtain ⟨before', after', hpieces, hsegment⟩ := Segment.exists_of_ofPieces hs
  rw [Segment.spell_pieces, Lexeme.spell_read] at hpieces
  refine Place.slice_eq_ok_iff.mpr ⟨before ++ '{' :: before', after' ++ '}' :: after, ?_, ?_⟩
  · rw [hpieces]
    simp [Place.start]
  · rw [hsegment, byteSize_append, byteSize_cons, show '{'.utf8Size = 1 from rfl]
    simp only [Place.start, Span.mk.injEq, and_true]
    omega

/-- The canonical form of an expression is read as the same expression. -/
theorem tokenize_render {template : Text} {tokens : List Token} {e : Expression}
    (h : tokenize template = .ok tokens) (he : expression e ∈ tokens)
    (hd : ∀ item ∈ e.items, ∀ text, item.span.slice template = .ok text →
      ¬ Item.DoublyConditioned text)
    (hs : byteSize e.render < offsetLimit) :
    ∃ e', tokenize e.render = .ok [expression e'] ∧ e'.span = ⟨0, byteSize e.render⟩ ∧
      e'.items.map Item.content = e.items.map Item.content := by
  obtain ⟨position, inside, henclosed, hgroup, hslices⟩ := exists_body_of_mem h he
  rw [Expression.ofGroup_braced] at hgroup
  have hitems : ∀ segment ∈ ofPieces (position + 1) (pieces (Lexeme.read closer? inside)),
      ¬ Item.DoublyConditioned segment.text := by
    intro segment hsegment
    obtain ⟨segments, hsegments, _, rfl⟩ := Expression.ofBody_eq_ok_iff.mp hgroup
    obtain ⟨_, rfl⟩ := Segment.ofLexemes_eq_ok hsegments
    apply hd _ (List.mem_map_of_mem hsegment)
    rw [Item.span_ofSegment]
    exact hslices segment hsegment
  obtain ⟨e', he', hcontent, hbraces⟩ := Expression.ofBody_render hgroup hitems 1 e.render
    ⟨0, byteSize e.render⟩
  have hrender : e.render =
      '{' :: ([',', ' '].intercalate (e.items.map Item.render)) ++ ['}'] := rfl
  have hform : Enclosed '{' '}' e.render :=
    henclosed.of_filter (by decide) rfl rfl hbraces.symm
  have hgroup' : Expression.ofGroup 0 e.render = .ok e' := by
    rw [hrender, Expression.ofGroup_braced, ← hrender]
    exact he'
  exact ⟨e', tokenize_group hform hs hgroup', (Expression.span_source_of_ofBody he').1, hcontent⟩

theorem tokenize_render_question_mark :
    tokenize "é\x7bk : [,] if c,, b: ?\x7d".toList = .ok
      [text "é".toList ⟨0, 2⟩, expression
        ⟨[⟨"[,]".toList, some ['k'], some ['c'], ⟨3, 12⟩⟩,
          ⟨[], some ['b'], some existence, ⟨18, 4⟩⟩],
          ⟨2, 21⟩, "\x7bk : [,] if c,, b: ?\x7d".toList⟩] ∧
    ∃ e', tokenize "\x7bk: [,] if c, b: ?\x7d".toList = .ok [expression e'] ∧ e'.span = ⟨0, 19⟩ ∧
      e'.items.map Item.content =
        [("[,]".toList, some ['k'], some ['c'], some ['c']),
          ([], some ['b'], some existence, some "normalize-space()".toList)] := by
  have h : tokenize "é\x7bk : [,] if c,, b: ?\x7d".toList = .ok
      [text "é".toList ⟨0, 2⟩, expression
        ⟨[⟨"[,]".toList, some ['k'], some ['c'], ⟨3, 12⟩⟩,
          ⟨[], some ['b'], some existence, ⟨18, 4⟩⟩],
          ⟨2, 21⟩, "\x7bk : [,] if c,, b: ?\x7d".toList⟩] := by
    decide +kernel
  have hk : Span.slice ⟨3, 12⟩ "é\x7bk : [,] if c,, b: ?\x7d".toList =
      .ok "k : [,] if c".toList := by
    decide +kernel
  have hb : Span.slice ⟨18, 4⟩ "é\x7bk : [,] if c,, b: ?\x7d".toList = .ok "b: ?".toList := by
    decide +kernel
  have hd : ∀ item ∈ [Item.mk "[,]".toList (some ['k']) (some ['c']) ⟨3, 12⟩,
      ⟨[], some ['b'], some existence, ⟨18, 4⟩⟩],
      ∀ text, item.span.slice "é\x7bk : [,] if c,, b: ?\x7d".toList = .ok text →
        ¬ Item.DoublyConditioned text := by
    intro item hi text ht
    rcases List.mem_cons.mp hi with rfl | hi
    · rw [← Except.ok.inj (hk.symm.trans ht)]
      decide +kernel
    · rw [List.mem_singleton.mp hi] at ht
      rw [← Except.ok.inj (hb.symm.trans ht)]
      decide +kernel
  obtain ⟨e', he', hspan, hcontent⟩ :=
    tokenize_render h (List.mem_cons_of_mem _ (List.mem_singleton.mpr rfl)) hd (by decide)
  exact ⟨h, e', he', hspan, hcontent⟩

end Token

end Stencil
