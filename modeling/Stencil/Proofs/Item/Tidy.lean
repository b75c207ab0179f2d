import Stencil.Proofs.Item.Value

/-!
# Items without blank parts

Nothing in an item that is read from an entry is blank: a condition is not empty, no
key and no condition has outer blanks, and where the value is empty there is a
condition. For an entry ends in no blank, so after every marker that is found in it
there stands a condition.
-/

set_option autoImplicit false

namespace Stencil

namespace Item

open Lexeme (spell breakAt)
open Segment (Entry)

structure Tidy (item : Item) : Prop where
  condition : ∀ condition ∈ item.condition, condition ≠ [] ∧ Trimmed condition
  key : ∀ key ∈ item.key, Trimmed key
  filled : item.value = [] → item.condition ≠ none

theorem trimmed_existence : Trimmed existence := by
  have hblank : ∀ c ∈ existence, isBlank c = false := by
    intro c hc
    obtain rfl : c = '?' := List.mem_singleton.mp hc
    decide
  exact ⟨fun c hc => hblank c (List.mem_of_mem_head? hc),
    fun c hc => hblank c (List.mem_of_getLast? hc)⟩

theorem Separable.tidy {item : Item} (h : Separable item) : Tidy item.settle := by
  have hcondition : ∀ condition ∈ item.condition, condition ≠ [] ∧ Trimmed condition :=
    fun condition hc => ⟨(h.condition condition hc).ne_nil, (h.condition condition hc).trimmed⟩
  have hkey : ∀ key ∈ item.key, Trimmed key := fun key hk => (h.key key hk).trimmed
  rcases settle_cases item with hsame | ⟨value, _, hstripped⟩
  · rw [hsame]
    exact ⟨hcondition, hkey, fun hnil => (h.filled hnil).2⟩
  · rw [hstripped]
    refine ⟨fun condition hc => ?_, hkey, by simp⟩
    obtain rfl : item.condition.getD existence = condition := by simpa using hc
    cases hgiven : item.condition with
    | none => exact ⟨by simp [existence], trimmed_existence⟩
    | some given => exact hcondition given hgiven

theorem tidy_ofSegment {segment : Segment} (h : Entry segment.text) : Tidy (ofSegment segment) :=
  (splits_of_entry h segment.span).separable.tidy

theorem exists_separators {text : Text}
    (hu : ∀ lexeme ∈ Lexeme.read closer? text, lexeme.isUnclosed = false) (start : Nat) :
    ∃ colon before, text = before ++ spell (layout (Lexeme.read closer? text)).marked ∧
      separators false start text (Lexeme.read closer? text) =
        .ok ⟨colon, markerAt (start + byteSize before)
          (layout (Lexeme.read closer? text)).marked⟩ := by
  have hl := Lexeme.lexed_read bracketing_closer? text
  have hspell := Lexeme.spell_read closer? text
  generalize Lexeme.read closer? text = lexemes at hu hl hspell
  subst hspell
  rcases hb : breakAt (stops false) lexemes with ⟨before, after⟩
  obtain ⟨rfl, _, _⟩ := Lexeme.breakAt_eq_iff.mp hb
  have hs := separators_false hu start hb
  by_cases hk : endsKey (spell after) = true
  · obtain ⟨b, t, ht, _⟩ := endsKey_iff.mp hk
    have hcolon := hl.of_append.1.eq_single_cons bracketing_closer? ht rfl rfl
    generalize Lexeme.read closer? (b :: t) = rest at hcolon
    subst hcolon
    rcases hr : breakAt (stops true) rest with ⟨value, marked⟩
    obtain ⟨rfl, _, _⟩ := Lexeme.breakAt_eq_iff.mp hr
    have hu' : ∀ lexeme ∈ value ++ marked, lexeme.isUnclosed = false :=
      fun l hl => hu l (List.mem_append_right _ (List.mem_cons_of_mem _ hl))
    rw [if_pos hk, List.tail_cons, separators_true hu' _ hr] at hs
    rw [layout_keyed hb hk hr]
    refine ⟨some (start + byteSize (spell before)), spell (before ++ .single ':' :: value),
      by simp, ?_⟩
    rw [hs]
    simp [Except.map, Lexeme.size, Nat.add_assoc]
  · rw [if_neg hk] at hs
    rw [layout_plain hb hk]
    exact ⟨none, spell before, by simp, hs⟩

theorem Layout.condition_eq_trim {l : Layout} (hm : l.marked ≠ []) (h : l.condition ≠ none) :
    trim ((spell l.marked).drop (markerLength (spell l.marked))) ≠ [] ∧
      l.condition = some (trim ((spell l.marked).drop (markerLength (spell l.marked)))) := by
  rw [condition, if_neg hm] at h ⊢
  have hne : trim ((spell l.marked).drop (markerLength (spell l.marked))) ≠ [] := by
    intro hnil
    rw [hnil] at h
    exact h rfl
  exact ⟨hne, if_neg (by simpa using hne)⟩

theorem Layout.condition_item {l : Layout} {condition : Text} (h : l.condition = some condition)
    (span : Span) : (l.item span).condition = some condition := by
  rw [item]
  rcases settle_cases (l.raw span) with hsame | ⟨value, _, hstripped⟩
  · rw [hsame]
    exact h
  · rw [hstripped, raw, h, Option.getD_some]

/-- A marker that is found in an entry is followed by a condition, and that is the item's. -/
theorem exists_condition {segment : Segment} (h : Entry segment.text)
    (hspan : segment.span.length = byteSize segment.text) {colon : Option Nat} {marker : Span}
    (hs : separators false segment.span.start segment.text (Lexeme.read closer? segment.text) =
      .ok ⟨colon, some marker⟩) :
    ∃ before after, segment.text = before ++ after ∧
      marker.stop = segment.span.start + byteSize before ∧ trim after ≠ [] ∧
      ∃ item, read segment = .ok item ∧ item.condition = some (trim after) := by
  obtain ⟨_, front, hfront, hfound⟩ := exists_separators h.closed segment.span.start
  have hlaid := laidOut_text segment.text
  have hread := read_eq hspan h.closed
  rw [hs] at hfound
  have hmarker := congrArg Separators.marker (Except.ok.inj hfound)
  simp only at hmarker
  generalize layout (Lexeme.read closer? segment.text) = l at *
  have hm : l.marked ≠ [] := by
    intro hnil
    simp [markerAt, hnil] at hmarker
  rw [markerAt, if_neg hm] at hmarker
  obtain rfl := Option.some.inj hmarker
  have hpresent := hlaid.condition_ne_none (Lexeme.lexed_read bracketing_closer? _)
    (by rw [Lexeme.spell_read]; exact h.trimmed.last) hm
  obtain ⟨hafter, hcondition⟩ := Layout.condition_eq_trim hm hpresent
  refine ⟨front ++ (spell l.marked).take (markerLength (spell l.marked)),
    (spell l.marked).drop (markerLength (spell l.marked)), ?_, ?_, hafter, _, hread,
    Layout.condition_item hcondition segment.span⟩
  · rw [List.append_assoc, List.take_append_drop]
    exact hfront
  · rw [byteSize_append, ← Nat.add_assoc]
    rfl

end Item

end Stencil
