import Stencil.Proofs.Lexeme
import Stencil.Proofs.Trim

/-!
# Lexemes and blanks

A blank outside groups and quoted runs is a lexeme of its own, so blanks before
a text, and blanks after a text of closed lexemes, are read apart from it. Blanks
after a trailing lexeme belong to that lexeme and leave it as it is otherwise.
-/

set_option autoImplicit false

namespace Stencil

theorem closer?_of_isBlank {c : Char} (h : isBlank c = true) : closer? c = none := by
  cases hc : closer? c with
  | none => rfl
  | some closer => simp [bracketing_closer?.isBlank_opener hc] at h

theorem isQuote_of_isBlank {c : Char} (h : isBlank c = true) : isQuote c = false := by
  cases hq : isQuote c with
  | false => rfl
  | true => simp [isBlank_of_isQuote hq] at h

theorem splitGroup?_of_not_mem {opener closer : Char} {depth : Nat} {w : Text}
    (hw : closer ∉ w) : splitGroup? opener closer depth w = none := by
  cases hs : splitGroup? opener closer depth w with
  | none => rfl
  | some pair =>
    obtain ⟨inside, hi, rfl⟩ := eq_append_of_splitGroup? hs
    simp [hi] at hw

theorem splitGroup?_append_eq_none {opener closer : Char} {depth : Nat} {text w : Text}
    (hne : opener ≠ closer) (hw : closer ∉ w) (h : splitGroup? opener closer depth text = none) :
    splitGroup? opener closer depth (text ++ w) = none := by
  obtain ⟨_, _, happend⟩ := splitGroup?_append hne h
  rw [happend, splitGroup?_of_not_mem hw]
  rfl

namespace Lexeme

variable {brackets : Char → Option Char}

@[simp] theorem spell_map_single (t : Text) : spell (t.map single) = t := by
  induction t with
  | nil => rfl
  | cons c t ih => simp [text, ih]

theorem closed_single_of_isBlank (hb : Bracketing brackets) {c : Char} (h : isBlank c = true) :
    Closed brackets (single c) :=
  .single (hb.eq_none (closer?_of_isBlank h)) (isQuote_of_isBlank h)

theorem closed_map_single (hb : Bracketing brackets) {w : Text} (hw : Blanks w) :
    ∀ lexeme ∈ w.map single, Closed brackets lexeme := by
  intro lexeme hl
  obtain ⟨c, hc, rfl⟩ := List.mem_map.mp hl
  exact closed_single_of_isBlank hb (hw c hc)

theorem read_blanks_append (hb : Bracketing brackets) {w : Text} (hw : Blanks w) (t : Text) :
    read brackets (w ++ t) = w.map single ++ read brackets t := by
  have h := read_spell_append hb (closed_map_single hb hw) t
  rwa [spell_map_single] at h

def extend (w : Text) : Lexeme → Lexeme
  | quoted t => quoted (t ++ w)
  | unclosed opener t => unclosed opener (t ++ w)
  | lexeme => lexeme

theorem Trailing.text_extend {lexeme : Lexeme} (h : Trailing brackets lexeme) (w : Text) :
    (lexeme.extend w).text = lexeme.text ++ w := by
  cases h <;> rfl

theorem Trailing.extend (hb : Bracketing brackets) {lexeme : Lexeme}
    (h : Trailing brackets lexeme) {w : Text} (hw : Blanks w) :
    Trailing brackets (lexeme.extend w) := by
  cases h with
  | @quoted quote inside hn hq h =>
    refine .quoted hn hq ?_
    intro hmem
    rcases List.mem_append.mp hmem with hmem | hmem
    · exact h hmem
    · simpa [isBlank_of_isQuote hq] using hw quote hmem
  | @unclosed opener closer inside ho h =>
    refine .unclosed ho (splitGroup?_append_eq_none (hb.ne ho) ?_ h)
    intro hmem
    simpa [hb.isBlank_closer ho] using hw closer hmem

theorem Trailing.not_closed {lexeme : Lexeme} (h : Trailing brackets lexeme) :
    ¬ Closed brackets lexeme := by
  intro hc
  cases h with
  | @quoted quote inside hn hq h =>
    generalize hl : Lexeme.quoted (quote :: inside) = lexeme at hc
    cases hc with
    | group => cases hl
    | quoted =>
      obtain ⟨rfl, rfl⟩ : quote = _ ∧ inside = _ := by simpa using hl
      simp at h
    | single => cases hl
  | unclosed => cases hc

theorem Lexed.eq_append {lexemes : List Lexeme} (h : Lexed brackets lexemes) :
    (∀ lexeme ∈ lexemes, Closed brackets lexeme) ∨
      ∃ init last, lexemes = init ++ [last] ∧ (∀ lexeme ∈ init, Closed brackets lexeme) ∧
        Trailing brackets last := by
  induction h with
  | nil => exact .inl (by simp)
  | last h => exact .inr ⟨[], _, rfl, by simp, h⟩
  | cons h _ ih =>
    rcases ih with hall | ⟨init, last, rfl, hinit, hlast⟩
    · exact .inl (List.forall_mem_cons.mpr ⟨h, hall⟩)
    · exact .inr ⟨_ :: init, last, rfl, List.forall_mem_cons.mpr ⟨h, hinit⟩, hlast⟩

/-- Blanks after a text are read apart from it or lengthen its trailing lexeme. -/
theorem read_append_blanks (hb : Bracketing brackets) (t : Text) {w : Text} (hw : Blanks w) :
    (∀ lexeme ∈ read brackets t, Closed brackets lexeme) ∧
        read brackets (t ++ w) = read brackets t ++ w.map single ∨
      ∃ init last, read brackets t = init ++ [last] ∧ Trailing brackets last ∧
        read brackets (t ++ w) = init ++ [last.extend w] := by
  have hspell := spell_read brackets t
  rcases (lexed_read hb t).eq_append with hall | ⟨init, last, heq, hinit, hlast⟩
  · left
    refine ⟨hall, ?_⟩
    have hw' := read_blanks_append hb hw []
    rw [read_append hb hall]
    simpa using hw'
  · right
    refine ⟨init, last, heq, hlast, ?_⟩
    have hr := read_spell_append hb hinit (last.extend w).text
    rw [(hlast.extend hb hw).read] at hr
    rw [← hr, hlast.text_extend, ← List.append_assoc, ← hspell, heq]
    simp

theorem eq_read_append (hb : Bracketing brackets) {lexemes : List Lexeme} {t w : Text}
    (h : ∀ lexeme ∈ lexemes, Closed brackets lexeme) (ht : spell lexemes = t ++ w)
    (hw : Blanks w) : lexemes = read brackets t ++ w.map single := by
  have hl : read brackets (t ++ w) = lexemes := by
    have := read_spell_append hb h []
    simpa [ht] using this
  rcases read_append_blanks hb t hw with ⟨_, hr⟩ | ⟨init, last, _, hlast, hr⟩
  · rw [← hl, hr]
  · have hmem : last.extend w ∈ lexemes := by rw [← hl, hr]; simp
    exact absurd (h _ hmem) (hlast.extend hb hw).not_closed

end Lexeme

end Stencil
