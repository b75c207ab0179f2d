import Mathlib.Data.List.Basic
import Stencil.Proofs.Item.Layout
import Stencil.Proofs.Segment.Entry

/-!
# The parts of an entry

An entry is laid out as a key, a value and a condition, and each part keeps what
makes the entry one: no outer blanks, no comma, no open group. No separator begins
inside a part, and none comes to begin there when the blanks between the parts or
the parts after it change.
-/

set_option autoImplicit false

namespace Stencil

namespace Lexeme

theorem Quiet.head {stop : Text → Bool} {lexemes : List Lexeme} {t : Text}
    (h : Quiet stop lexemes t) (hne : lexemes ≠ []) : stop (spell lexemes ++ t) = false := by
  cases lexemes with
  | nil => exact absurd rfl hne
  | cons lexeme rest => exact h.1

theorem Lexed.text_ne_nil {lexemes : List Lexeme} (h : Lexed closer? lexemes) :
    ∀ lexeme ∈ lexemes, lexeme.text ≠ [] := by
  induction h with
  | nil => simp
  | last ht => simpa using ht.text_ne_nil
  | cons hc _ ih => exact List.forall_mem_cons.mpr ⟨hc.text_ne_nil bracketing_closer?, ih⟩

end Lexeme

namespace Item

open Lexeme (spell breakAt Quiet Lexed Closed)

/-- Where no separator begins in lexemes before one text, none does before another
that begins with a blank only where the one does. -/
theorem quiet_stops {keyed : Bool} {lexemes : List Lexeme} {r r' : Text}
    (hl : Lexed closer? lexemes) (hlast : ∀ c ∈ (spell lexemes).getLast?, isBlank c = false)
    (hblank : ∀ b ∈ r'.head?, isBlank b = true → ∃ d ∈ r.head?, isBlank d = true)
    (hf : 'f' ∉ r'.head?) (h : Quiet (stops keyed) lexemes r) : Quiet (stops keyed) lexemes r' := by
  have hne := hl.text_ne_nil
  clear hl
  induction lexemes with
  | nil => trivial
  | cons lexeme rest ih =>
    refine ⟨?_, ?_⟩
    · refine stops_append_eq_false ?_ hlast hblank hf h.1
      simpa using fun he => absurd he (hne lexeme (by simp))
    · refine ih ?_ h.2 fun l hl => hne l (by simp [hl])
      intro c hc
      exact hlast c (List.mem_getLast?_append_of_mem_getLast? hc)

structure Ends (keyed : Bool) (value marked : List Lexeme) : Prop where
  quiet : Quiet (stops keyed) value (spell marked)
  begins : marked ≠ [] → marks (spell marked) = true

inductive LaidOut : List Lexeme → Layout → Prop
  | keyed {key value marked : List Lexeme}
      (hk : Quiet (stops false) key (':' :: spell (value ++ marked)))
      (hb : ∃ b ∈ (spell (value ++ marked)).head?, isBlank b = true)
      (h : Ends true value marked) :
      LaidOut (key ++ .single ':' :: (value ++ marked)) ⟨some key, value, marked⟩
  | plain {value marked : List Lexeme} (h : Ends false value marked) :
      LaidOut (value ++ marked) ⟨none, value, marked⟩

theorem endsKey_eq_false_of_marks {t : Text} (h : marks t = true) : endsKey t = false := by
  cases hk : endsKey t with
  | false => rfl
  | true =>
    obtain ⟨b, rest, rfl, _⟩ := endsKey_iff.mp hk
    rw [marks_eq_false (by simp; decide)] at h
    cases h

theorem stops_of_marks {t : Text} (h : marks t = true) (keyed : Bool) : stops keyed t = true := by
  rw [stops, h, Bool.or_true]

theorem stops_eq_marks {keyed : Bool} {t : Text} (h : endsKey t = false) :
    stops keyed t = marks t := by
  rw [stops, h, Bool.and_false, Bool.false_or]

theorem LaidOut.layout_eq {lexemes : List Lexeme} {l : Layout} (h : LaidOut lexemes l) :
    layout lexemes = l := by
  cases h with
  | @keyed key value marked hk hb h =>
    obtain ⟨b, hb, hblank⟩ := hb
    obtain ⟨rest, hrest⟩ := List.head?_eq_some_iff.mp hb
    have hends : endsKey (spell (.single ':' :: (value ++ marked))) = true :=
      endsKey_iff.mpr ⟨b, rest, by rw [Lexeme.spell_cons, hrest]; rfl, hblank⟩
    refine layout_keyed (Lexeme.breakAt_eq_iff.mpr ⟨rfl, hk, ?_⟩) hends
      (Lexeme.breakAt_eq_iff.mpr ⟨rfl, h.quiet, fun hne => stops_of_marks (h.begins hne) true⟩)
    intro _
    rw [stops, hends]
    rfl
  | @plain value marked h =>
    refine layout_plain (Lexeme.breakAt_eq_iff.mpr ⟨rfl, h.quiet,
      fun hne => stops_of_marks (h.begins hne) false⟩) ?_
    by_cases hm : marked = []
    · rw [hm]
      decide
    · simp [endsKey_eq_false_of_marks (h.begins hm)]

theorem laidOut_layout {lexemes : List Lexeme} (hl : Lexed closer? lexemes) :
    LaidOut lexemes (layout lexemes) := by
  rcases hb : breakAt (stops false) lexemes with ⟨before, after⟩
  obtain ⟨rfl, hbefore, hafter⟩ := Lexeme.breakAt_eq_iff.mp hb
  by_cases hk : endsKey (spell after) = true
  · obtain ⟨b, t, ht, hblank⟩ := endsKey_iff.mp hk
    have hcolon := hl.of_append.1.eq_single_cons bracketing_closer? ht rfl rfl
    have hspell := Lexeme.spell_read closer? (b :: t)
    generalize Lexeme.read closer? (b :: t) = rest at hcolon hspell
    subst hcolon
    rcases hr : breakAt (stops true) rest with ⟨value, marked⟩
    obtain ⟨rfl, hvalue, hmarked⟩ := Lexeme.breakAt_eq_iff.mp hr
    rw [layout_keyed hb hk hr]
    exact .keyed hbefore ⟨b, by rw [hspell]; rfl, hblank⟩ ⟨hvalue, hmarked⟩
  · rw [layout_plain hb hk]
    refine .plain ⟨hbefore, fun hne => ?_⟩
    rw [← hafter hne, stops_eq_marks (by simpa using hk)]

theorem LaidOut.ends {lexemes : List Lexeme} {l : Layout} (h : LaidOut lexemes l)
    (hl : Lexed closer? lexemes) (hlast : ∀ c ∈ (spell lexemes).getLast?, isBlank c = false) :
    Ends l.key.isSome l.value l.marked ∧ Lexed closer? (l.value ++ l.marked) ∧
      ∀ c ∈ (spell (l.value ++ l.marked)).getLast?, isBlank c = false := by
  cases h with
  | @keyed key value marked hk hb h =>
    refine ⟨h, (@Lexed.of_append _ (key ++ [.single ':']) (value ++ marked) (by simpa using hl)).1,
      fun c hc => ?_⟩
    apply hlast c
    rw [Lexeme.spell_append, Lexeme.spell_cons]
    exact List.mem_getLast?_append_of_mem_getLast? (List.mem_getLast?_append_of_mem_getLast? hc)
  | plain h => exact ⟨h, hl, hlast⟩

/-- A value that its end or a marker follows ends in no blank: a marker would have
begun at that blank already. -/
theorem Ends.last {keyed : Bool} {value marked : List Lexeme} (h : Ends keyed value marked)
    (hl : Lexed closer? (value ++ marked))
    (hlast : ∀ c ∈ (spell (value ++ marked)).getLast?, isBlank c = false) :
    ∀ c ∈ (spell value).getLast?, isBlank c = false := by
  intro b hb
  by_cases hm : marked = []
  · rw [hm, List.append_nil] at hlast
    exact hlast b hb
  · cases hblank : isBlank b with
    | false => rfl
    | true =>
      obtain ⟨t, ht⟩ := List.getLast?_eq_some_iff.mp hb
      have hw : Blanks [b] := by simpa [Blanks] using hblank
      have hvalue := Lexeme.eq_read_append bracketing_closer? (hl.of_append.2 hm) ht hw
      have hquiet := h.quiet
      rw [hvalue] at hquiet
      have hstop := (Lexeme.quiet_append.mp hquiet).2.1
      have hmarks := stops_of_marks (marks_cons hblank (h.begins hm)) keyed
      exact absurd hmarks (by simpa [Lexeme.text] using hstop)

theorem Ends.value_eq {keyed : Bool} {value marked : List Lexeme} (h : Ends keyed value marked)
    (hl : Lexed closer? (value ++ marked))
    (hlast : ∀ c ∈ (spell (value ++ marked)).getLast?, isBlank c = false) :
    spell value = leadingBlanks (spell value) ++ trim (spell value) ∧
      value = (leadingBlanks (spell value)).map .single ++
        Lexeme.read closer? (trim (spell value)) := by
  have hsplit := leadingBlanks_append_trimStart (spell value)
  have htrim : trim (spell value) = trimStart (spell value) := by
    apply trimEnd_eq_self
    intro c hc
    apply h.last hl hlast c
    rw [← hsplit]
    exact List.mem_getLast?_append_of_mem_getLast? hc
  rw [htrim]
  refine ⟨hsplit.symm, ?_⟩
  have hread := Lexeme.read_blanks_append bracketing_closer? (blanks_leadingBlanks (spell value))
    (trimStart (spell value))
  rw [hsplit, hl.left.read_spell bracketing_closer?] at hread
  exact hread

theorem Layout.condition_eq {marked : List Lexeme} {v w condition : Text}
    (hs : spell marked = v ++ 'i' :: 'f' :: w ++ condition) (hv : Blanks v) (hvne : v ≠ [])
    (hw : Blanks w) (hwne : w ≠ []) (ht : Trimmed condition) (hne : condition ≠ [])
    (key : Option (List Lexeme)) (value : List Lexeme) :
    (Layout.mk key value marked).condition = some condition := by
  have hm : marked ≠ [] := by
    rintro rfl
    simp at hs
  have hlength : markerLength (spell marked) = (v ++ 'i' :: 'f' :: w).length := by
    have hmarker := Pattern.conditionMarker_eq_some_iff.mpr
      ⟨v, w, condition, hs, hv, hvne, hw, hwne, ht.head, rfl⟩
    rw [markerLength, hmarker, Option.getD_some, List.length_append, List.length_cons,
      List.length_cons]
    omega
  rw [Layout.condition, if_neg hm, hlength, hs, List.drop_left, trim_of_trimmed ht]
  simpa using hne

theorem IsMarked.trimmed {t condition : Text} (h : IsMarked t condition)
    (hlast : ∀ c ∈ t.getLast?, isBlank c = false) : condition ≠ [] ∧ Trimmed condition := by
  obtain ⟨v, w, rfl, _, _, hw, hwne, hhead⟩ := h
  have hend : ∀ c ∈ (w ++ condition).getLast?, isBlank c = false := by
    intro c hc
    apply hlast c
    have hassoc : v ++ 'i' :: 'f' :: w ++ condition = v ++ ['i', 'f'] ++ (w ++ condition) := by
      simp
    rw [hassoc]
    exact List.mem_getLast?_append_of_mem_getLast? hc
  refine ⟨?_, hhead, fun c hc => hend c (List.mem_getLast?_append_of_mem_getLast? hc)⟩
  rintro rfl
  rw [List.append_nil] at hend
  exact hwne (eq_nil_of_blanks hw hend)

/-- A condition follows every marker of an entry. -/
theorem Ends.condition {keyed : Bool} {value marked : List Lexeme} (h : Ends keyed value marked)
    (hl : Lexed closer? (value ++ marked))
    (hlast : ∀ c ∈ (spell (value ++ marked)).getLast?, isBlank c = false) (hm : marked ≠ [])
    (key : Option (List Lexeme)) :
    ∃ condition, IsMarked (spell marked) condition ∧ condition ≠ [] ∧ Trimmed condition ∧
      (Layout.mk key value marked).condition = some condition ∧
      ∀ lexeme ∈ Lexeme.read closer? condition, lexeme ∈ marked := by
  obtain ⟨c, hc⟩ := marks_iff_exists_isMarked.mp (h.begins hm)
  obtain ⟨hne, htrimmed⟩ := hc.trimmed fun d hd => by
    apply hlast d
    rw [Lexeme.spell_append]
    exact List.mem_getLast?_append_of_mem_getLast? hd
  have ⟨v, w, hspell, hv, hvne, hw, hwne, _⟩ := hc
  refine ⟨c, hc, hne, htrimmed,
    Layout.condition_eq hspell hv hvne hw hwne htrimmed hne key value, ?_⟩
  have hread : Lexeme.read closer? (spell marked) = v.map .single ++
      .single 'i' :: .single 'f' :: (w.map .single ++ Lexeme.read closer? c) := by
    rw [hspell, List.append_assoc, Lexeme.read_blanks_append bracketing_closer? hv]
    simp only [List.cons_append]
    rw [Lexeme.read_single rfl rfl, Lexeme.read_single rfl rfl,
      Lexeme.read_blanks_append bracketing_closer? hw]
  rw [hl.of_append.1.read_spell bracketing_closer?] at hread
  intro lexeme hlexeme
  rw [hread]
  simp [hlexeme]

end Item

end Stencil
