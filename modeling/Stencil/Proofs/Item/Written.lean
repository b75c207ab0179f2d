import Stencil.Proofs.Item.Units

/-!
# Items lose nothing but separators

The text of a segment can be put together again from the parts of its item: the key and
its colon, the value, the question mark that was taken off it, the marker and its
condition. All that an item does not keep are the colon, the marker, and the blanks
around them.
-/

set_option autoImplicit false

namespace Stencil

namespace Item

open Lexeme (spell Lexed)

theorem leadingBlanks_eq_nil {s t : Text} (h : ∀ c ∈ (s ++ t).head?, isBlank c = false) :
    leadingBlanks s = [] := by
  have hs : ∀ c ∈ s.head?, isBlank c = false :=
    fun c hc => h c (List.mem_head?_append_of_mem_head? hc)
  simpa using leadingBlanks_append blanks_nil hs

inductive KeyWritten : Option Text → Text → Prop
  | none : KeyWritten none []
  | some {key v w : Text} (hv : Blanks v) (hw : Blanks w) :
      KeyWritten (some key) (key ++ v ++ ':' :: w)

inductive ConditionWritten : Option Text → Text → Prop
  | none : ConditionWritten none []
  | some {condition t : Text} (h : IsMarked t condition) : ConditionWritten (some condition) t

/-- The text is written with the parts of the item, where `given` is the condition that follows
a marker. A question mark may have been taken off the value. -/
def IsWritten (text : Text) (item : Item) (given : Option Text) : Prop :=
  ∃ front question back, text = front ++ item.value ++ question ++ back ∧
    KeyWritten item.key front ∧ (question = [] ∨ question = existence) ∧
    ConditionWritten given back ∧
    item.condition = given.or (if question = [] then none else some existence)

theorem keyWritten_lead {l : Layout} {t : Text}
    (h : ∀ c ∈ (spell l.lead ++ t).head?, isBlank c = false) :
    KeyWritten (l.key.map fun key => trim (spell key)) (spell l.lead ++ leadingBlanks t) := by
  rw [Layout.lead] at h ⊢
  cases hkey : l.key with
  | none =>
    rw [hkey, Lexeme.spell_nil, List.nil_append, ← List.append_nil t] at h
    rw [Lexeme.spell_nil, List.nil_append, leadingBlanks_eq_nil h]
    exact .none
  | some key =>
    simp only [hkey, Lexeme.spell_append, List.append_assoc] at h
    obtain ⟨w, hw, hspell⟩ := eq_append_trim (spell key)
    rw [leadingBlanks_eq_nil h, List.nil_append] at hspell
    have hlead : spell (key ++ [.single ':']) ++ leadingBlanks t =
        trim (spell key) ++ w ++ ':' :: leadingBlanks t := by
      rw [Lexeme.spell_append, ← hspell, List.append_assoc]
      rfl
    simp only [hlead]
    exact .some hw (blanks_leadingBlanks t)

namespace LaidOut

variable {lexemes : List Lexeme} {l : Layout}

theorem conditionWritten (h : LaidOut lexemes l) (hl : Lexed closer? lexemes)
    (hlast : ∀ c ∈ (spell lexemes).getLast?, isBlank c = false) :
    ConditionWritten l.condition (spell l.marked) := by
  rcases h.condition_cases hl hlast with ⟨hm, hnone⟩ | ⟨condition, _, hmarked, hsome⟩
  · rw [hm, hnone]
    exact .none
  · rw [hsome]
    exact .some hmarked

theorem keyWritten (h : LaidOut lexemes l) (hl : Lexed closer? lexemes)
    (ht : Trimmed (spell lexemes)) :
    ∃ front, spell lexemes = front ++ l.valueText ++ spell l.marked ∧
      KeyWritten (l.key.map fun key => trim (spell key)) front := by
  have hsplit : spell lexemes = spell l.lead ++ spell l.value ++ spell l.marked := by
    rw [h.eq_append, Lexeme.spell_append, Lexeme.spell_append]
  have hhead := ht.head
  rw [hsplit, List.append_assoc] at hhead
  obtain ⟨hends, hl, hlast⟩ := h.ends hl ht.last
  have hvalue := (hends.value_eq hl hlast).1
  rw [← Layout.valueText] at hvalue
  refine ⟨spell l.lead ++ leadingBlanks (spell l.value), ?_, keyWritten_lead fun c hc => ?_⟩
  · conv_lhs => rw [hsplit, hvalue]
    simp
  · apply hhead c
    rw [← List.append_assoc]
    exact List.mem_head?_append_of_mem_head? hc

theorem isWritten (h : LaidOut lexemes l) (hl : Lexed closer? lexemes)
    (ht : Trimmed (spell lexemes)) (span : Span) :
    IsWritten (spell lexemes) (l.item span) l.condition := by
  obtain ⟨front, htext, hkey⟩ := h.keyWritten hl ht
  have hcondition := h.conditionWritten hl ht.last
  rw [Layout.item]
  rcases settle_cases (l.raw span) with hsame | ⟨value, hvalue, hstripped⟩
  · rw [hsame]
    refine ⟨front, [], spell l.marked, ?_, hkey, .inl rfl, hcondition, ?_⟩
    · rw [List.append_nil]
      exact htext
    · rw [if_pos rfl, Option.or_none]
      rfl
  · rw [hstripped]
    refine ⟨front, existence, spell l.marked, ?_, hkey, .inr rfl, hcondition, ?_⟩
    · rw [List.append_assoc front, ← hvalue]
      exact htext
    · rw [if_neg (by decide)]
      exact (Option.or_some).symm

end LaidOut

theorem isWritten_ofSegment {segment : Segment} (h : Segment.Entry segment.text) :
    IsWritten segment.text (ofSegment segment)
      (layout (Lexeme.read closer? segment.text)).condition := by
  have ht : Trimmed (spell (Lexeme.read closer? segment.text)) := by
    rw [Lexeme.spell_read]
    exact h.trimmed
  have hwritten := (laidOut_text segment.text).isWritten
    (Lexeme.lexed_read bracketing_closer? segment.text) ht segment.span
  rwa [Lexeme.spell_read] at hwritten

/-- The text of a segment is that of the parts of its item, and a condition is written with a
marker if a marker begins at one of the units. -/
theorem text_of_parts {source : Place} {window : Span} {segments : List Segment}
    (h : Segment.splitWithin source window = .ok segments) {segment : Segment}
    (hs : segment ∈ segments) :
    ∃ units item given, Units segment.text units ∧ read segment = .ok item ∧
      (given ≠ none ↔ ∃ m, FirstAt MarkerAhead units m) ∧ IsWritten segment.text item given := by
  obtain ⟨hentry, hspan⟩ := Segment.entry_of_splitWithin h segment hs
  have hlaid := laidOut_text segment.text
  have hl := Lexeme.lexed_read bracketing_closer? segment.text
  have ht : Trimmed (spell (Lexeme.read closer? segment.text)) := by
    rw [Lexeme.spell_read]
    exact hentry.trimmed
  refine ⟨_, _, _, units_of_closed hentry.closed, read_eq hspan hentry.closed, ?_,
    isWritten_ofSegment hentry⟩
  simp only [hlaid.firstAt_marker_iff]
  rcases hlaid.condition_cases hl ht.last with ⟨hm, hnone⟩ | ⟨condition, hm, _, hsome⟩
  · simp [hm, hnone]
  · simp [hm, hsome]

theorem text_of_parts_question_marks :
    Segment.splitWithin (Place.start "\x7bk :  a: b?? if  (c) if,d ?\x7d".toList) ⟨1, 26⟩ =
        .ok [⟨"k :  a: b?? if  (c) if".toList, ⟨1, 22⟩⟩, ⟨"d ?".toList, ⟨24, 3⟩⟩] ∧
      (∃ units given, Units "k :  a: b?? if  (c) if".toList units ∧
        (∃ m, FirstAt MarkerAhead units m) ∧ given ≠ none ∧
        IsWritten "k :  a: b?? if  (c) if".toList
          ⟨"a: b?".toList, some ['k'], some "(c) if".toList, ⟨1, 22⟩⟩ given) ∧
      IsWritten "d ?".toList ⟨"d ".toList, none, some existence, ⟨24, 3⟩⟩ none := by
  have hsplit : Segment.splitWithin
      (Place.start "\x7bk :  a: b?? if  (c) if,d ?\x7d".toList) ⟨1, 26⟩ =
      .ok [⟨"k :  a: b?? if  (c) if".toList, ⟨1, 22⟩⟩, ⟨"d ?".toList, ⟨24, 3⟩⟩] := by
    decide +kernel
  have hread : read ⟨"k :  a: b?? if  (c) if".toList, ⟨1, 22⟩⟩ =
      .ok ⟨"a: b?".toList, some ['k'], some "(c) if".toList, ⟨1, 22⟩⟩ := by
    decide +kernel
  have hread' : read ⟨"d ?".toList, ⟨24, 3⟩⟩ = .ok ⟨"d ".toList, none, some existence, ⟨24, 3⟩⟩ := by
    decide +kernel
  obtain ⟨units, item, given, hunits, hitem, hgiven, hwritten⟩ :=
    text_of_parts hsplit List.mem_cons_self
  obtain ⟨units', item', given', hunits', hitem', hgiven', hwritten'⟩ :=
    text_of_parts hsplit (List.mem_cons_of_mem _ List.mem_cons_self)
  rw [← Except.ok.inj (hread.symm.trans hitem)] at hwritten
  rw [← Except.ok.inj (hread'.symm.trans hitem')] at hwritten'
  -- The condition of the first item is no question mark, so it is written with a marker.
  have hmarked : given ≠ none := by
    rintro rfl
    obtain ⟨_, question, _, _, _, _, _, hcondition⟩ := hwritten
    by_cases hq : question = []
    · simp [hq] at hcondition
    · simp [hq, existence] at hcondition
  have hplain : given' = none := by
    by_contra hne
    obtain ⟨m, hm⟩ := hgiven'.mp hne
    obtain ⟨_, v, w, hflat, _⟩ := hm.holds
    have hflatten : units'.flatten = "d ?".toList := hunits'.flatten_eq
    have hmem : 'i' ∈ "d ?".toList := by
      rw [← hflatten, ← List.take_append_drop m units', List.flatten_append, hflat]
      simp
    exact absurd hmem (by decide)
  rw [hplain] at hwritten'
  exact ⟨hsplit, ⟨units, given, hunits, hgiven.mp hmarked, hmarked, hwritten⟩, hwritten'⟩

end Item

end Stencil
