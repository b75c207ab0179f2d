import Stencil.Proofs.Expression
import Stencil.Proofs.Item.Separable

/-!
# What a value is of its text

A value is what the text of an item has between the separators, less a question mark
at its end. So an item with a key or a condition has a shorter value than its text,
and every other item of an entry is its text as it stands.
-/

set_option autoImplicit false

namespace Stencil

theorem length_trim_le (t : Text) : (trim t).length ≤ t.length := by
  obtain ⟨w, _, ht⟩ := eq_append_trim t
  have hlength := congrArg List.length ht
  simp only [List.length_append] at hlength
  omega

namespace Item

open Lexeme (spell Lexed)
open Segment (Entry)

/-- A question mark at the end of a value is taken for a condition, and nothing else is changed. -/
theorem settle_cases (item : Item) :
    item.settle = item ∨ ∃ value, item.value = value ++ existence ∧
      item.settle = ⟨value, item.key, some (item.condition.getD existence), item.span⟩ := by
  by_cases hq : item.value.getLast? = some '?'
  · obtain ⟨value, hvalue⟩ := List.getLast?_eq_some_iff.mp hq
    refine .inr ⟨value, hvalue, ?_⟩
    rw [settle, stripQuestion?, if_pos hq, hvalue, List.dropLast_concat]
  · left
    rw [settle, stripQuestion?, if_neg hq]

theorem LaidOut.length_valueText {lexemes : List Lexeme} {l : Layout} (h : LaidOut lexemes l) :
    l.valueText.length ≤ (spell lexemes).length ∧
      (l.key ≠ none ∨ l.marked ≠ [] → l.valueText.length < (spell lexemes).length) := by
  have htrim := length_trim_le (spell l.value)
  rw [← Layout.valueText] at htrim
  cases h with
  | keyed =>
    simp only [Lexeme.spell_append, Lexeme.spell_cons, List.length_append,
      show (Lexeme.single ':').text.length = 1 from rfl] at htrim ⊢
    omega
  | @plain value marked h =>
    simp only [Lexeme.spell_append, List.length_append] at htrim ⊢
    refine ⟨by omega, fun hor => ?_⟩
    obtain ⟨b, hb, _⟩ := head?_of_marks (h.begins (by simpa using hor))
    have hpos := List.length_pos_of_mem (List.mem_of_mem_head? hb)
    omega

/-- A marker in an entry is followed by a condition, and there is no condition without one. -/
theorem LaidOut.condition_cases {lexemes : List Lexeme} {l : Layout} (h : LaidOut lexemes l)
    (hl : Lexed closer? lexemes) (hlast : ∀ c ∈ (spell lexemes).getLast?, isBlank c = false) :
    l.marked = [] ∧ l.condition = none ∨ ∃ condition, l.marked ≠ [] ∧
      IsMarked (spell l.marked) condition ∧ l.condition = some condition := by
  by_cases hm : l.marked = []
  · exact .inl ⟨hm, if_pos hm⟩
  · obtain ⟨hends, hl, hlast⟩ := h.ends hl hlast
    obtain ⟨condition, hmarked, _, _, hsome, _⟩ := hends.condition hl hlast hm l.key
    exact .inr ⟨condition, hm, hmarked, hsome⟩

theorem LaidOut.condition_ne_none {lexemes : List Lexeme} {l : Layout} (h : LaidOut lexemes l)
    (hl : Lexed closer? lexemes) (hlast : ∀ c ∈ (spell lexemes).getLast?, isBlank c = false)
    (hm : l.marked ≠ []) : l.condition ≠ none := by
  rcases h.condition_cases hl hlast with ⟨hnil, _⟩ | ⟨condition, _, _, hsome⟩
  · exact absurd hnil hm
  · simp [hsome]

theorem LaidOut.valueText_eq {lexemes : List Lexeme} {l : Layout} (h : LaidOut lexemes l)
    (ht : Trimmed (spell lexemes)) (hk : l.key = none) (hm : l.marked = []) :
    l.valueText = spell lexemes := by
  cases h with
  | keyed => cases hk
  | @plain value marked h =>
    obtain rfl : marked = [] := hm
    rw [List.append_nil] at ht ⊢
    exact trim_of_trimmed ht

theorem laidOut_text (text : Text) :
    LaidOut (Lexeme.read closer? text) (layout (Lexeme.read closer? text)) :=
  laidOut_layout (Lexeme.lexed_read bracketing_closer? text)

theorem length_value_le (segment : Segment) :
    (ofSegment segment).value.length ≤ segment.text.length := by
  have hle := (laidOut_text segment.text).length_valueText.1
  rw [Lexeme.spell_read] at hle
  rw [ofSegment, Layout.item]
  rcases settle_cases (Layout.raw _ segment.span) with hsame | ⟨value, hvalue, hstripped⟩
  · rw [hsame]
    exact hle
  · have hlength := congrArg List.length hvalue
    rw [List.length_append] at hlength
    rw [hstripped]
    exact (Nat.le.intro hlength.symm).trans hle

theorem length_value_lt {segment : Segment} (h : (ofSegment segment).isExtended = true) :
    (ofSegment segment).value.length < segment.text.length := by
  obtain ⟨hle, hlt⟩ := (laidOut_text segment.text).length_valueText
  rw [Lexeme.spell_read] at hle hlt
  rw [ofSegment, Layout.item] at h ⊢
  rcases settle_cases (Layout.raw _ segment.span) with hsame | ⟨value, hvalue, hstripped⟩
  · rw [hsame] at h ⊢
    apply hlt
    rcases Bool.or_eq_true_iff.mp h with hkey | hcondition
    · left
      intro hnone
      simp [Layout.raw, hnone] at hkey
    · right
      intro hnil
      simp [Layout.raw, Layout.condition, hnil] at hcondition
  · have hlength := congrArg List.length hvalue
    rw [List.length_append] at hlength
    rw [hstripped]
    refine Nat.lt_of_lt_of_le ?_ hle
    exact hlength ▸ Nat.lt_succ_self value.length

/-- An item of an entry is plain if its value is its text, and only then. -/
theorem isExtended_eq_false_iff {segment : Segment} (h : Entry segment.text) :
    (ofSegment segment).isExtended = false ↔ (ofSegment segment).value = segment.text := by
  constructor
  · intro hplain
    have hlaid := laidOut_text segment.text
    rw [ofSegment, Layout.item] at hplain ⊢
    rcases settle_cases (Layout.raw _ segment.span) with hsame | ⟨value, _, hstripped⟩
    · rw [hsame] at hplain ⊢
      obtain ⟨hkey, hcondition⟩ := Bool.or_eq_false_iff.mp hplain
      have hk : (layout (Lexeme.read closer? segment.text)).key = none := by
        simpa [Layout.raw] using hkey
      have hm : (layout (Lexeme.read closer? segment.text)).marked = [] := by
        by_contra hm
        refine hlaid.condition_ne_none (Lexeme.lexed_read bracketing_closer? _) ?_ hm ?_
        · rw [Lexeme.spell_read]
          exact h.trimmed.last
        · simpa [Layout.raw] using hcondition
      have hvalue := hlaid.valueText_eq (by rw [Lexeme.spell_read]; exact h.trimmed) hk hm
      rwa [Lexeme.spell_read] at hvalue
    · rw [hstripped] at hplain
      simp [isExtended] at hplain
  · intro hvalue
    by_contra hextended
    have hlt := length_value_lt (by simpa using hextended)
    rw [hvalue] at hlt
    exact Nat.lt_irrefl _ hlt

end Item

end Stencil
