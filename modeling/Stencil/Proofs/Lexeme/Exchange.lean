import Stencil.Proofs.Lexeme.Blank

/-!
# One group in the place of another

Two groups of one kind, or two quoted runs in the same quotes, begin and end alike,
whatever they hold. Where the one stands in a text, the other can stand: what is
around it is read and trimmed as before.
-/

set_option autoImplicit false

namespace Stencil

inductive Alike : Text → Text → Prop
  | group {opener closer : Char} {g g' : Text} (hb : closer? opener = some closer)
      (h : Enclosed opener closer g) (h' : Enclosed opener closer g') : Alike g g'
  | quoted {quote : Char} {inside inside' : Text} (hq : isQuote quote = true)
      (h : quote ∉ inside) (h' : quote ∉ inside') :
      Alike (quote :: inside ++ [quote]) (quote :: inside' ++ [quote])

structure Foreign (c : Char) : Prop where
  blank : isBlank c = false
  colon : c ≠ ':'
  i : c ≠ 'i'
  f : c ≠ 'f'

namespace Alike

variable {g g' : Text}

theorem symm (h : Alike g g') : Alike g' g := by
  cases h with
  | group hb h h' => exact .group hb h' h
  | quoted hq h h' => exact .quoted hq h' h

theorem first (h : Alike g g') : ∃ c s s', g = c :: s ∧ g' = c :: s' ∧ Foreign c := by
  cases h with
  | @group opener closer _ _ hb h h' =>
    obtain ⟨inside, rfl⟩ := h.exists_inside (bracketing_closer?.ne hb)
    obtain ⟨inside', rfl⟩ := h'.exists_inside (bracketing_closer?.ne hb)
    refine ⟨opener, _, _, rfl, rfl, ?_⟩
    rcases closer?_cases hb with ⟨rfl, rfl⟩ | ⟨rfl, rfl⟩ | ⟨rfl, rfl⟩ <;>
      exact ⟨by decide, by decide, by decide, by decide⟩
  | @quoted quote _ _ hq h h' =>
    refine ⟨quote, _, _, rfl, rfl, ?_⟩
    rcases isQuote_cases hq with rfl | rfl <;>
      exact ⟨by decide, by decide, by decide, by decide⟩

theorem last (h : Alike g g') :
    ∃ c s s', g = s ++ [c] ∧ g' = s' ++ [c] ∧ isBlank c = false ∧ c ≠ '?' := by
  cases h with
  | @group opener closer _ _ hb h h' =>
    obtain ⟨inside, rfl⟩ := h.exists_inside (bracketing_closer?.ne hb)
    obtain ⟨inside', rfl⟩ := h'.exists_inside (bracketing_closer?.ne hb)
    refine ⟨closer, _, _, rfl, rfl, ?_⟩
    rcases closer?_cases hb with ⟨rfl, rfl⟩ | ⟨rfl, rfl⟩ | ⟨rfl, rfl⟩ <;> decide
  | @quoted quote inside inside' hq h h' =>
    refine ⟨quote, _, _, rfl, rfl, ?_⟩
    rcases isQuote_cases hq with rfl | rfl <;> decide

theorem exists_lexemes (h : Alike g g') : ∃ lexeme lexeme' : Lexeme,
    lexeme.text = g ∧ lexeme'.text = g' ∧ Lexeme.Closed closer? lexeme ∧
      Lexeme.Closed closer? lexeme' ∧ lexeme ≠ .single ',' ∧ lexeme' ≠ .single ',' := by
  cases h with
  | group hb h h' =>
    exact ⟨.group _ _, .group _ _, rfl, rfl, .group hb h, .group hb h', by simp, by simp⟩
  | quoted hq h h' =>
    have hn := bracketing_closer?.of_isQuote hq
    exact ⟨.quoted _, .quoted _, rfl, rfl, .quoted hn hq h, .quoted hn hq h', by simp, by simp⟩

end Alike

theorem Alike.trimmed {g g' : Text} (h : Alike g g') : g ≠ [] ∧ Trimmed g := by
  obtain ⟨c, s, _, hg, _, hc⟩ := h.first
  obtain ⟨d, t, _, hg', _, hd, _⟩ := h.last
  refine ⟨by simp [hg], ?_, ?_⟩
  · simpa [hg] using hc.blank
  · simpa [hg'] using hd

theorem Alike.trim_around {g g' : Text} (h : Alike g g') (u v : Text) :
    trim (u ++ g ++ v) = trimStart u ++ g ++ trimEnd v ∧
      trim (u ++ g' ++ v) = trimStart u ++ g' ++ trimEnd v :=
  ⟨Stencil.trim_around h.trimmed.1 h.trimmed.2 u v,
    Stencil.trim_around h.symm.trimmed.1 h.symm.trimmed.2 u v⟩

namespace Lexeme

/-- A lexeme of `x ++ t` begins where `t` does. -/
def Starts (x t : Text) : Prop :=
  ∃ before after, read closer? (x ++ t) = before ++ after ∧ spell before = x

theorem Starts.closed {x t : Text} (h : Starts x t) (ht : t ≠ []) :
    ∀ lexeme ∈ read closer? x, Closed closer? lexeme := by
  obtain ⟨before, after, hread, rfl⟩ := h
  have hl := lexed_read bracketing_closer? (spell before ++ t)
  have hspell := spell_read closer? (spell before ++ t)
  rw [hread] at hl hspell
  rw [spell_append] at hspell
  have hafter : after ≠ [] := by
    rintro rfl
    exact ht (List.append_cancel_left hspell).symm
  rw [hl.left.read_spell bracketing_closer?]
  exact hl.of_append.2 hafter

/-- Blanks that are taken off closed lexemes were lexemes of their own. -/
theorem closed_trimStart {p : List Lexeme} (hp : ∀ l ∈ p, Closed closer? l) :
    ∀ l ∈ read closer? (trimStart (Lexeme.spell p)), Closed closer? l := by
  have hread := read_blanks_append bracketing_closer? (blanks_leadingBlanks (Lexeme.spell p))
    (trimStart (Lexeme.spell p))
  have hspell := read_spell_append bracketing_closer? hp []
  rw [List.append_nil, read_nil, List.append_nil] at hspell
  rw [leadingBlanks_append_trimStart, hspell] at hread
  intro l hm
  apply hp l
  rw [hread]
  exact List.mem_append_right _ hm

theorem Closed.read_around {lexeme : Lexeme} (h : Closed closer? lexeme) {x : Text}
    (hx : ∀ l ∈ read closer? x, Closed closer? l) (y : Text) :
    read closer? (x ++ lexeme.text ++ y) = read closer? x ++ lexeme :: read closer? y := by
  rw [List.append_assoc, Lexeme.read_append bracketing_closer? hx,
    h.read_append bracketing_closer?]

end Lexeme

end Stencil
