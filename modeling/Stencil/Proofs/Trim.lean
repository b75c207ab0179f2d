import Mathlib.Data.List.Basic
import Mathlib.Data.List.TakeWhile
import Stencil.Text.Blank

/-!
# What trimming takes away

Every text is its trimmed form with blanks on both sides, and the trimmed form
is the only text without outer blanks of which that can be said.
-/

set_option autoImplicit false

namespace Stencil

def Blanks (t : Text) : Prop := ∀ c ∈ t, isBlank c = true

instance : DecidablePred Blanks := List.decidableBAll (isBlank · = true)

structure Trimmed (t : Text) : Prop where
  head : ∀ c ∈ t.head?, isBlank c = false
  last : ∀ c ∈ t.getLast?, isBlank c = false

theorem blanks_nil : Blanks [] := by
  intro c hc
  simp at hc

theorem blanks_space : Blanks [' '] := by
  intro c hc
  rw [List.mem_singleton.mp hc]
  decide

theorem eq_nil_of_blanks {t : Text} (ht : Blanks t) (h : ∀ c ∈ t.getLast?, isBlank c = false) :
    t = [] := by
  cases hl : t.getLast? with
  | none => exact List.getLast?_eq_none_iff.mp hl
  | some c => simpa [ht c (List.mem_of_getLast? hl)] using h c hl

theorem blanks_append_iff {s t : Text} : Blanks (s ++ t) ↔ Blanks s ∧ Blanks t := by
  simp only [Blanks, List.mem_append, or_imp, forall_and]

theorem blanks_reverse_iff {t : Text} : Blanks t.reverse ↔ Blanks t := by
  simp only [Blanks, List.mem_reverse]

theorem blanks_leadingBlanks (t : Text) : Blanks (leadingBlanks t) :=
  fun _ hc => List.mem_takeWhile_imp hc

theorem trimStart_append {w : Text} (hw : Blanks w) (t : Text) :
    trimStart (w ++ t) = trimStart t :=
  List.dropWhile_append_of_pos hw

theorem trimStart_eq_self {t : Text} (h : ∀ c ∈ t.head?, isBlank c = false) : trimStart t = t := by
  cases t with
  | nil => rfl
  | cons c t => simp [trimStart, h c rfl]

theorem head?_trimStart (t : Text) : ∀ c ∈ (trimStart t).head?, isBlank c = false := by
  intro c hc
  have := List.head?_dropWhile_not isBlank t
  rw [← trimStart, Option.mem_def.mp hc] at this
  simpa using this

theorem trimEnd_append {w : Text} (hw : Blanks w) (t : Text) : trimEnd (t ++ w) = trimEnd t := by
  rw [trimEnd, List.reverse_append, trimStart_append (blanks_reverse_iff.mpr hw), ← trimEnd]

theorem trimEnd_eq_self {t : Text} (h : ∀ c ∈ t.getLast?, isBlank c = false) : trimEnd t = t := by
  rw [trimEnd, trimStart_eq_self (by simpa using h), List.reverse_reverse]

theorem exists_trimEnd (t : Text) : ∃ w, Blanks w ∧ t = trimEnd t ++ w := by
  refine ⟨(leadingBlanks t.reverse).reverse, ?_, ?_⟩
  · exact blanks_reverse_iff.mpr (blanks_leadingBlanks _)
  · rw [trimEnd, ← List.reverse_append, leadingBlanks_append_trimStart, List.reverse_reverse]

theorem trimEnd_isPrefix (t : Text) : trimEnd t <+: t := by
  obtain ⟨w, _, h⟩ := exists_trimEnd t
  exact ⟨w, h.symm⟩

theorem getLast?_trimEnd (t : Text) : ∀ c ∈ (trimEnd t).getLast?, isBlank c = false := by
  intro c hc
  rw [trimEnd, List.getLast?_reverse] at hc
  exact head?_trimStart _ c hc

/-- A text is its trimmed form with blanks around it. -/
theorem eq_append_trim (t : Text) : ∃ w, Blanks w ∧ t = leadingBlanks t ++ trim t ++ w := by
  obtain ⟨w, hw, hs⟩ := exists_trimEnd (trimStart t)
  refine ⟨w, hw, ?_⟩
  rw [trim, List.append_assoc, ← hs, leadingBlanks_append_trimStart]

theorem trimmed_trim (t : Text) : Trimmed (trim t) := by
  obtain ⟨w, hw, hs⟩ := exists_trimEnd (trimStart t)
  refine ⟨?_, getLast?_trimEnd _⟩
  intro c hc
  apply head?_trimStart t c
  rw [hs]
  cases h : trimEnd (trimStart t) with
  | nil => simp [trim, h] at hc
  | cons b s => simpa [trim, h] using hc

theorem trim_blanks_append {w : Text} (hw : Blanks w) (t : Text) : trim (w ++ t) = trim t := by
  rw [trim, trimStart_append hw, ← trim]

theorem trim_append {v w x : Text} (hv : Blanks v) (hx : Trimmed x) (hw : Blanks w) :
    trim (v ++ x ++ w) = x := by
  rw [trim, List.append_assoc, trimStart_append hv]
  cases x with
  | nil =>
    rw [List.nil_append, show trimStart w = [] from List.dropWhile_eq_nil_iff.mpr hw]
    rfl
  | cons c x =>
    rw [trimStart_eq_self (by simpa using hx.head), trimEnd_append hw, trimEnd_eq_self hx.last]

theorem trim_of_trimmed {t : Text} (h : Trimmed t) : trim t = t := by
  simpa using trim_append blanks_nil h blanks_nil

theorem leadingBlanks_append {w x : Text} (hw : Blanks w) (hx : ∀ c ∈ x.head?, isBlank c = false) :
    leadingBlanks (w ++ x) = w := by
  rw [leadingBlanks, List.takeWhile_append_of_pos hw]
  cases x with
  | nil => simp
  | cons c x => simp [hx c rfl]

theorem trimStart_append_of_head (u : Text) {t : Text} (ht : ∀ c ∈ t.head?, isBlank c = false) :
    trimStart (u ++ t) = trimStart u ++ t := by
  rw [trimStart, List.dropWhile_append]
  split
  next h =>
    have hu : trimStart u = [] := List.isEmpty_iff.mp h
    rw [hu]
    exact trimStart_eq_self ht
  next => rfl

theorem trimEnd_append_of_last {t : Text} (ht : ∀ c ∈ t.getLast?, isBlank c = false) (v : Text) :
    trimEnd (t ++ v) = t ++ trimEnd v := by
  rw [trimEnd, List.reverse_append, trimStart_append_of_head _ (by simpa using ht), trimEnd,
    List.reverse_append, List.reverse_reverse]

/-- Around a text without outer blanks, trimming goes on as if that text were not there. -/
theorem trim_around {t : Text} (hne : t ≠ []) (ht : Trimmed t) (u v : Text) :
    trim (u ++ t ++ v) = trimStart u ++ t ++ trimEnd v := by
  have hhead : ∀ c ∈ (t ++ v).head?, isBlank c = false := by
    rw [List.head?_append_of_ne_nil _ hne]
    exact ht.head
  have hlast : ∀ c ∈ (trimStart u ++ t).getLast?, isBlank c = false := by
    rw [List.getLast?_append_of_ne_nil _ hne]
    exact ht.last
  rw [trim, List.append_assoc, trimStart_append_of_head u hhead, ← List.append_assoc,
    trimEnd_append_of_last hlast]

end Stencil
