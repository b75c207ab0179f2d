import Stencil.Proofs.Expression
import Stencil.Proofs.Item.Render

/-!
# Expressions in their canonical form

The canonical form of an expression is cut into the canonical forms of its items,
and it has the braces of the body it was read from, in the same order. So it is one
group again, and its items are the same.
-/

set_option autoImplicit false

namespace Stencil

open Lexeme (spell)
open Segment (Entry Whole Joinable pieces ofPieces)

namespace Item

def DoublyConditioned (text : Text) : Prop :=
  (layout (Lexeme.read closer? text)).valueText.getLast? = some '?' ∧
    (layout (Lexeme.read closer? text)).condition ≠ none

instance : DecidablePred DoublyConditioned := fun _ => inferInstanceAs (Decidable (_ ∧ _))

def contentOf (text : Text) : Text × Option Text × Option Text × Option Text :=
  ((layout (Lexeme.read closer? text)).item ⟨0, byteSize text⟩).content

theorem content_ofSegment (segment : Segment) :
    (ofSegment segment).content = contentOf segment.text :=
  content_settle _ _ _ _ _

theorem span_ofSegment (segment : Segment) : (ofSegment segment).span = segment.span := by
  rw [ofSegment, Layout.item, settle]
  cases stripQuestion? ((layout (Lexeme.read closer? segment.text)).raw segment.span).value <;> rfl

/-- The canonical form of a segment is an entry like it, with the same braces, and
is read as the same item. -/
theorem render_ofSegment {segment : Segment} (h : Entry segment.text)
    (hd : ¬ DoublyConditioned segment.text) :
    Entry (ofSegment segment).render ∧
      (Whole segment.text → Whole (ofSegment segment).render) ∧
      contentOf (ofSegment segment).render = (ofSegment segment).content ∧
      (ofSegment segment).render.filter isBrace = segment.text.filter isBrace := by
  have hsplits := splits_of_entry h segment.span
  have hrender : (ofSegment segment).render =
      ((layout (Lexeme.read closer? segment.text)).raw segment.span).render := render_settle hd
  rw [hrender]
  refine ⟨entry_render hsplits.separable, ?_, content_render hsplits.separable hd _, ?_⟩
  · intro hw
    obtain ⟨hv, hc⟩ := hsplits.whole hw
    exact whole_render hsplits.separable hv hc
  · rw [filter_isBrace_render, hsplits.braces]

theorem isMixed_of_content {items items' : List Item}
    (h : items'.map content = items.map content) : isMixed items' = isMixed items := by
  have hany : ∀ items : List Item,
      items.any isKeyed = (items.map content).any fun c => c.2.1.isSome := by
    intro items
    rw [List.any_map]
    rfl
  have hall : ∀ items : List Item,
      items.all isKeyed = (items.map content).all fun c => c.2.1.isSome := by
    intro items
    rw [List.all_map]
    rfl
  rw [isMixed, isMixed, hany, hany items, hall, hall items, h]

theorem filter_isBrace_trim (t : Text) : (trim t).filter isBrace = t.filter isBrace := by
  obtain ⟨w, hw, ht⟩ := eq_append_trim t
  have h := congrArg (List.filter isBrace) ht
  rw [List.filter_append, List.filter_append, filter_isBrace_blanks (blanks_leadingBlanks t),
    filter_isBrace_blanks hw, List.nil_append, List.append_nil] at h
  exact h.symm

end Item

namespace Segment

theorem joinable_map {segments : List Segment} {form : Segment → Text}
    (h : Joinable (segments.map text))
    (hf : ∀ segment ∈ segments, Entry segment.text →
      Entry (form segment) ∧ (Whole segment.text → Whole (form segment))) :
    Joinable (segments.map form) := by
  induction segments with
  | nil => trivial
  | cons segment rest ih =>
    obtain ⟨hentry, hwhole, hrest⟩ := h
    obtain ⟨hentry', hwhole'⟩ := hf segment (by simp) hentry
    refine ⟨hentry', ?_, ih hrest fun s hs => hf s (by simp [hs])⟩
    intro hne
    exact hwhole' (hwhole (by simpa using hne))

theorem filter_intercalate {kind : Char → Bool} {sep : Text} (hsep : sep.filter kind = [])
    (texts : List Text) :
    (sep.intercalate texts).filter kind = texts.flatMap (List.filter kind) := by
  induction texts with
  | nil => rfl
  | cons t rest ih =>
    by_cases hr : rest = []
    · simp [hr]
    · rw [List.intercalate_cons_of_ne_nil hr, List.filter_append, List.filter_append, hsep,
        List.append_nil, ih]
      rfl

theorem flatMap_texts (offset : Nat) (runs : List (List Lexeme)) :
    ((ofPieces offset runs).map text).flatMap (List.filter Item.isBrace) =
      (runs.map spell).flatMap (List.filter Item.isBrace) := by
  rw [texts_ofPieces]
  induction runs with
  | nil => rfl
  | cons run rest ih =>
    have htrim := Item.filter_isBrace_trim (spell run)
    by_cases h : trim (spell run) = []
    · rw [h] at htrim
      simpa [h, ← htrim] using ih
    · simpa [h, htrim] using ih

theorem filter_isBrace_texts (offset : Nat) (body : Text) :
    ((ofPieces offset (pieces (Lexeme.read closer? body))).map text).flatMap
      (List.filter Item.isBrace) = body.filter Item.isBrace := by
  have hbody := spell_pieces (Lexeme.read closer? body)
  rw [Lexeme.spell_read] at hbody
  rw [flatMap_texts, ← @filter_intercalate _ [','] (by decide), hbody]

end Segment

namespace Expression

theorem ofBody_render {offset : Nat} {body source : Text} {span : Span} {e : Expression}
    (h : ofBody offset body source span = .ok e)
    (hd : ∀ segment ∈ ofPieces offset (pieces (Lexeme.read closer? body)),
      ¬ Item.DoublyConditioned segment.text) (offset' : Nat) (source' : Text) (span' : Span) :
    ∃ e', ofBody offset' ([',', ' '].intercalate (e.items.map Item.render)) source' span' = .ok e' ∧
      e'.items.map Item.content = e.items.map Item.content ∧
      ([',', ' '].intercalate (e.items.map Item.render)).filter Item.isBrace =
        body.filter Item.isBrace := by
  obtain ⟨segments, hsegments, hmixed, rfl⟩ := ofBody_eq_ok_iff.mp h
  have hjoin := Segment.joinable_of_ofLexemes (Lexeme.lexed_read bracketing_closer? body) hsegments
  obtain ⟨_, hs⟩ := Segment.ofLexemes_eq_ok hsegments
  rw [← hs] at hd
  have hrender := fun segment hmem =>
    Item.render_ofSegment (hjoin.entry _ (List.mem_map_of_mem hmem)) (hd segment hmem)
  have hforms : Joinable (segments.map fun segment => (Item.ofSegment segment).render) :=
    Segment.joinable_map hjoin fun segment hmem _ =>
      ⟨(hrender segment hmem).1, (hrender segment hmem).2.1⟩
  rw [List.map_map]
  have hread := Segment.ofLexemes_of_closed (Segment.closed_intercalate hforms) offset'
  have htexts := Segment.texts_intercalate hforms offset'
  generalize ofPieces offset' (pieces (Lexeme.read closer?
    ([',', ' '].intercalate (segments.map fun segment => (Item.ofSegment segment).render)))) =
      segments' at hread htexts
  have hcontent : (segments'.map Item.ofSegment).map Item.content =
      (segments.map Item.ofSegment).map Item.content := by
    calc (segments'.map Item.ofSegment).map Item.content
        = (segments'.map Segment.text).map Item.contentOf := by
          simp only [List.map_map, Function.comp_def, Item.content_ofSegment]
      _ = (segments.map fun segment => (Item.ofSegment segment).render).map Item.contentOf := by
          rw [htexts]
      _ = (segments.map Item.ofSegment).map Item.content := by
          rw [List.map_map, List.map_map]
          exact List.map_congr_left fun segment hmem => (hrender segment hmem).2.2.1
  have hbraces : (segments.map fun segment => (Item.ofSegment segment).render).flatMap
      (List.filter Item.isBrace) = body.filter Item.isBrace := by
    rw [← Segment.filter_isBrace_texts offset body, ← hs, List.flatMap_map, List.flatMap_map]
    exact List.flatMap_congr fun segment hmem => (hrender segment hmem).2.2.2
  refine ⟨⟨segments'.map Item.ofSegment, span', source'⟩, ?_, hcontent, ?_⟩
  · refine ofBody_eq_ok_iff.mpr ⟨segments', hread, ?_, rfl⟩
    rw [Item.isMixed_of_content hcontent, hmixed]
  · rw [← hbraces]
    exact Segment.filter_intercalate (by decide) _

end Expression

end Stencil
