import Mathlib.Data.List.TakeWhile
import Stencil.Lexeme
import Stencil.Text.Blank
import Stencil.Proofs.Group

/-!
# The grammar of lexemes

A lexeme is closed if its own last character ends it: an enclosed group, a quoted
run with both its quotes, a single character. It is trailing if only the end of
the text ends it: a quoted run without its second quote, an opener without its
closer. A list is lexed if its lexemes are closed but perhaps for a trailing last
one. Reading a text gives the lexed list that spells it, and there is one only.
-/

set_option autoImplicit false

namespace Stencil

def Bracketing (brackets : Char → Option Char) : Prop :=
  ∀ opener closer, brackets opener = some closer → closer? opener = some closer

theorem closer?_cases {opener closer : Char} (h : closer? opener = some closer) :
    opener = '{' ∧ closer = '}' ∨ opener = '[' ∧ closer = ']' ∨ opener = '(' ∧ closer = ')' := by
  unfold closer? at h
  split at h <;> simp_all [eq_comm]

theorem bracketing_closer? : Bracketing closer? := fun _ _ h => h

theorem bracketing_braceCloser? : Bracketing braceCloser? := by
  intro opener closer h
  unfold braceCloser? at h
  split at h
  · simpa [closer?] using h
  · simp at h

theorem braceCloser?_eq_some_iff {opener closer : Char} :
    braceCloser? opener = some closer ↔ opener = '{' ∧ closer = '}' := by
  constructor
  · intro h
    unfold braceCloser? at h
    split at h <;> simp_all [eq_comm]
  · rintro ⟨rfl, rfl⟩
    rfl

theorem braceCloser?_eq_none_iff {c : Char} : braceCloser? c = none ↔ c ≠ '{' := by
  constructor
  · rintro h rfl
    simp [braceCloser?] at h
  · intro h
    unfold braceCloser?
    split <;> simp_all

theorem isQuote_cases {c : Char} (h : isQuote c = true) : c = '"' ∨ c = '\'' := by
  simpa [isQuote] using h

namespace Bracketing

variable {brackets : Char → Option Char} {opener closer : Char}

theorem ne (hb : Bracketing brackets) (h : brackets opener = some closer) : opener ≠ closer := by
  rcases closer?_cases (hb opener closer h) with ⟨rfl, rfl⟩ | ⟨rfl, rfl⟩ | ⟨rfl, rfl⟩ <;> decide

theorem isBlank_opener (hb : Bracketing brackets) (h : brackets opener = some closer) :
    isBlank opener = false := by
  rcases closer?_cases (hb opener closer h) with ⟨rfl, rfl⟩ | ⟨rfl, rfl⟩ | ⟨rfl, rfl⟩ <;> decide

theorem isBlank_closer (hb : Bracketing brackets) (h : brackets opener = some closer) :
    isBlank closer = false := by
  rcases closer?_cases (hb opener closer h) with ⟨rfl, rfl⟩ | ⟨rfl, rfl⟩ | ⟨rfl, rfl⟩ <;> decide

theorem eq_none (hb : Bracketing brackets) {c : Char} (h : closer? c = none) :
    brackets c = none := by
  cases hc : brackets c with
  | none => rfl
  | some closer => rw [hb c closer hc] at h; cases h

theorem of_isQuote (hb : Bracketing brackets) {c : Char} (h : isQuote c = true) :
    brackets c = none := by
  apply hb.eq_none
  rcases isQuote_cases h with rfl | rfl <;> rfl

end Bracketing

theorem isBlank_of_isQuote {c : Char} (h : isQuote c = true) : isBlank c = false := by
  rcases isQuote_cases h with rfl | rfl <;> decide

theorem splitQuote_of_not_mem {quote : Char} {text : Text} (h : quote ∉ text) :
    splitQuote quote text = (text, []) := by
  have hall : ∀ c ∈ text, (c != quote) = true := by
    intro c hc
    simpa using fun heq : c = quote => h (heq ▸ hc)
  simp [splitQuote, List.takeWhile_eq_self_iff.mpr hall, List.dropWhile_eq_nil_iff.mpr hall]

theorem splitQuote_append_cons {quote : Char} {inside : Text} (h : quote ∉ inside) (rest : Text) :
    splitQuote quote (inside ++ quote :: rest) = (inside ++ [quote], rest) := by
  have hall : ∀ c ∈ inside, (c != quote) = true := by
    intro c hc
    simpa using fun heq : c = quote => h (heq ▸ hc)
  simp [splitQuote, List.takeWhile_append_of_pos hall, List.dropWhile_append_of_pos hall]

namespace Lexeme

variable {brackets : Char → Option Char}

@[simp] theorem read_nil : read brackets [] = [] := by
  rw [read]

theorem read_group {opener closer : Char} (hb : brackets opener = some closer) {t s rest : Text}
    (h : splitGroup? opener closer 0 t = some (s, rest)) :
    read brackets (opener :: t) = group opener (opener :: s) :: read brackets rest := by
  rw [read]
  split
  next closer' hb' =>
    obtain rfl : closer = closer' := by simpa [hb] using hb'
    split
    next h' =>
      obtain ⟨rfl, rfl⟩ : s = _ ∧ rest = _ := by simpa [h] using h'
      rfl
    next h' => simp [h] at h'
  next hb' => simp [hb] at hb'

theorem read_unclosed {opener closer : Char} (hb : brackets opener = some closer) {t : Text}
    (h : splitGroup? opener closer 0 t = none) :
    read brackets (opener :: t) = [unclosed opener (opener :: t)] := by
  rw [read]
  split
  next closer' hb' =>
    obtain rfl : closer = closer' := by simpa [hb] using hb'
    split
    next h' => simp [h] at h'
    next => rfl
  next hb' => simp [hb] at hb'

theorem read_quoted {quote : Char} (hb : brackets quote = none) (hq : isQuote quote = true)
    (t : Text) :
    read brackets (quote :: t) =
      quoted (quote :: (splitQuote quote t).1) :: read brackets (splitQuote quote t).2 := by
  rw [read]
  split
  next hb' => simp [hb] at hb'
  next => rw [if_pos hq]

theorem read_single {c : Char} (hb : brackets c = none) (hq : isQuote c = false) (t : Text) :
    read brackets (c :: t) = single c :: read brackets t := by
  rw [read]
  split
  next hb' => simp [hb] at hb'
  next => rw [if_neg (by simp [hq])]

inductive Closed (brackets : Char → Option Char) : Lexeme → Prop
  | group {opener closer : Char} {text : Text} (hb : brackets opener = some closer)
      (h : Enclosed opener closer text) : Closed brackets (group opener text)
  | quoted {quote : Char} {inside : Text} (hb : brackets quote = none)
      (hq : isQuote quote = true) (h : quote ∉ inside) :
      Closed brackets (quoted (quote :: inside ++ [quote]))
  | single {c : Char} (hb : brackets c = none) (hq : isQuote c = false) :
      Closed brackets (single c)

inductive Trailing (brackets : Char → Option Char) : Lexeme → Prop
  | quoted {quote : Char} {inside : Text} (hb : brackets quote = none)
      (hq : isQuote quote = true) (h : quote ∉ inside) :
      Trailing brackets (quoted (quote :: inside))
  | unclosed {opener closer : Char} {inside : Text} (hb : brackets opener = some closer)
      (h : splitGroup? opener closer 0 inside = none) :
      Trailing brackets (unclosed opener (opener :: inside))

inductive Lexed (brackets : Char → Option Char) : List Lexeme → Prop
  | nil : Lexed brackets []
  | last {lexeme : Lexeme} (h : Trailing brackets lexeme) : Lexed brackets [lexeme]
  | cons {lexeme : Lexeme} {rest : List Lexeme} (h : Closed brackets lexeme)
      (hr : Lexed brackets rest) : Lexed brackets (lexeme :: rest)

theorem Closed.text_ne_nil (hb : Bracketing brackets) {lexeme : Lexeme}
    (h : Closed brackets lexeme) : lexeme.text ≠ [] := by
  cases h with
  | group ho h =>
    obtain ⟨inside, rfl⟩ := h.exists_inside (hb.ne ho)
    simp [text]
  | quoted => simp [text]
  | single => simp [text]

theorem Trailing.text_ne_nil {lexeme : Lexeme} (h : Trailing brackets lexeme) :
    lexeme.text ≠ [] := by
  cases h <;> simp [text]

/-- A closed lexeme is read from any text that it begins. -/
theorem Closed.read_append (hb : Bracketing brackets) {lexeme : Lexeme}
    (h : Closed brackets lexeme) (t : Text) :
    read brackets (lexeme.text ++ t) = lexeme :: read brackets t := by
  cases h with
  | @group opener closer g ho h =>
    obtain ⟨inside, rfl⟩ := h.exists_inside (hb.ne ho)
    rw [text, List.cons_append, List.cons_append]
    exact read_group ho (splitGroup?_of_enclosed (hb.ne ho) h t)
  | @quoted quote inside hn hq h =>
    have hs := splitQuote_append_cons h t
    rw [text, List.cons_append, List.cons_append, List.append_assoc, List.singleton_append,
      read_quoted hn hq, hs]
  | single hn hq => exact read_single hn hq t

theorem Trailing.read (lexeme : Lexeme) (h : Trailing brackets lexeme) :
    read brackets lexeme.text = [lexeme] := by
  cases h with
  | quoted hn hq h => rw [text, read_quoted hn hq, splitQuote_of_not_mem h, read_nil]
  | unclosed ho h => exact read_unclosed ho h

theorem Lexed.read_spell (hb : Bracketing brackets) {lexemes : List Lexeme}
    (h : Lexed brackets lexemes) : Lexeme.read brackets (spell lexemes) = lexemes := by
  induction h with
  | nil => exact read_nil
  | last h => simpa using h.read
  | cons h _ ih => rw [spell_cons, h.read_append hb, ih]

theorem lexed_read (hb : Bracketing brackets) (t : Text) : Lexed brackets (read brackets t) := by
  fun_induction read brackets t with
  | case1 => exact .nil
  | case2 c rest closer ho s after h ih =>
    exact .cons (.group ho (enclosed_of_splitGroup? (hb.ne ho) h)) ih
  | case3 c rest closer ho h => exact .last (.unclosed ho h)
  | case4 c rest hn hq ih =>
    by_cases hmem : c ∈ rest
    · obtain ⟨inside, after, rfl, hi⟩ := List.eq_append_cons_of_mem hmem
      rw [splitQuote_append_cons hi] at ih ⊢
      exact .cons (.quoted hn hq hi) ih
    · rw [splitQuote_of_not_mem hmem, read_nil]
      exact .last (.quoted hn hq hmem)
  | case5 c rest hn hq ih => exact .cons (.single hn (by simpa using hq)) ih

/-- The lexemes of a text are the one lexed list that spells it. -/
theorem read_eq_iff (hb : Bracketing brackets) {t : Text} {lexemes : List Lexeme} :
    read brackets t = lexemes ↔ Lexed brackets lexemes ∧ spell lexemes = t := by
  constructor
  · rintro rfl
    exact ⟨lexed_read hb t, spell_read brackets t⟩
  · rintro ⟨h, rfl⟩
    exact h.read_spell hb

theorem Lexed.eq_single_cons (hb : Bracketing brackets) {lexemes : List Lexeme} {c : Char}
    {t : Text} (h : Lexed brackets lexemes) (ht : spell lexemes = c :: t) (hc : brackets c = none)
    (hq : isQuote c = false) : lexemes = .single c :: Lexeme.read brackets t := by
  rw [← h.read_spell hb, ht, read_single hc hq]

theorem read_spell_append (hb : Bracketing brackets) {lexemes : List Lexeme}
    (h : ∀ lexeme ∈ lexemes, Closed brackets lexeme) (t : Text) :
    read brackets (spell lexemes ++ t) = lexemes ++ read brackets t := by
  induction lexemes with
  | nil => simp
  | cons lexeme rest ih =>
    rw [spell_cons, List.append_assoc, (h lexeme (by simp)).read_append hb,
      ih (fun l hl => h l (by simp [hl])), List.cons_append]

/-- A text of closed lexemes keeps apart what follows it. -/
theorem read_append (hb : Bracketing brackets) {s : Text}
    (h : ∀ lexeme ∈ read brackets s, Closed brackets lexeme) (t : Text) :
    read brackets (s ++ t) = read brackets s ++ read brackets t := by
  have hr := read_spell_append hb h t
  rwa [spell_read] at hr

theorem Lexed.append {lexemes rest : List Lexeme} (h : ∀ lexeme ∈ lexemes, Closed brackets lexeme)
    (hr : Lexed brackets rest) : Lexed brackets (lexemes ++ rest) := by
  induction lexemes with
  | nil => exact hr
  | cons lexeme lexemes ih =>
    exact .cons (h lexeme (by simp)) (ih (fun l hl => h l (by simp [hl])))

theorem Lexed.of_append {lexemes rest : List Lexeme} (h : Lexed brackets (lexemes ++ rest)) :
    Lexed brackets rest ∧ (rest ≠ [] → ∀ lexeme ∈ lexemes, Closed brackets lexeme) := by
  induction lexemes with
  | nil => exact ⟨h, by simp⟩
  | cons lexeme lexemes ih =>
    generalize hl : lexeme :: lexemes ++ rest = all at h
    cases h with
    | nil => simp at hl
    | last h =>
      obtain ⟨rfl, rfl, rfl⟩ : lexeme = _ ∧ lexemes = [] ∧ rest = [] := by simpa using hl
      exact ⟨.nil, by simp⟩
    | cons h hr =>
      obtain ⟨rfl, rfl⟩ : lexeme = _ ∧ lexemes ++ rest = _ := by simpa using hl
      refine ⟨(ih hr).1, ?_⟩
      intro hne l hmem
      rcases List.mem_cons.mp hmem with rfl | hmem
      · exact h
      · exact (ih hr).2 hne l hmem

theorem Lexed.left {lexemes rest : List Lexeme} (h : Lexed brackets (lexemes ++ rest)) :
    Lexed brackets lexemes := by
  by_cases hr : rest = []
  · rwa [hr, List.append_nil] at h
  · have := Lexed.append (h.of_append.2 hr) .nil
    rwa [List.append_nil] at this

end Lexeme

end Stencil
