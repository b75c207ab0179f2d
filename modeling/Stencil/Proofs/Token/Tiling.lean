import Mathlib.Data.List.Chain
import Stencil.Proofs.Token

/-!
# Tokens tile their template

The tokens of a template stand one after the other from its first byte to its
last, each with the text that it was read from. Literal text is never empty, never
split over two tokens, and has no opening brace outside its quoted runs; an
expression is one brace group.
-/

set_option autoImplicit false

namespace Stencil

def unquoted : Option Char → Text → Text
  | _, [] => []
  | none, c :: t => if isQuote c then unquoted (some c) t else c :: unquoted none t
  | some quote, c :: t => if c = quote then unquoted none t else unquoted (some quote) t

theorem unquoted_inside {quote : Char} {inside : Text} (h : quote ∉ inside) (t : Text) :
    unquoted (some quote) (inside ++ t) = unquoted (some quote) t := by
  induction inside with
  | nil => rfl
  | cons c inside ih =>
    have hc : c ≠ quote := fun heq => h (by simp [heq])
    rw [List.cons_append, unquoted, if_neg hc, ih fun hmem => h (by simp [hmem])]

theorem unquoted_run {quote : Char} {inside : Text} (hq : isQuote quote = true)
    (h : quote ∉ inside) (t : Text) :
    unquoted none (quote :: inside ++ [quote] ++ t) = unquoted none t := by
  have hrun := unquoted_inside h (quote :: t)
  simpa [unquoted, hq] using hrun

namespace Token

open Lexeme (spell Closed Trailing Lexed)

def isText : Token → Bool
  | text .. => true
  | expression _ => false

def Abut : Nat → List Token → Nat → Prop
  | start, [], stop => start = stop
  | start, token :: rest, stop => token.span.start = start ∧ Abut token.span.stop rest stop

structure Tiling (template : Text) (tokens : List Token) : Prop where
  abut : Abut 0 tokens (byteSize template)
  slice : ∀ token ∈ tokens, token.span.slice template = .ok token.source
  spells : tokens.flatMap source = template
  filled : ∀ run span, text run span ∈ tokens → run ≠ []
  apart : tokens.IsChain fun s t => ¬ (s.isText = true ∧ t.isText = true)
  literal : ∀ run span, text run span ∈ tokens → '{' ∉ unquoted none run
  group : ∀ e, expression e ∈ tokens → Enclosed '{' '}' e.source

def Placed : Nat → List Token → Prop
  | _, [] => True
  | offset, token :: rest =>
    token.span = ⟨offset, byteSize token.source⟩ ∧ Placed (offset + byteSize token.source) rest

def Sound : Token → Prop
  | text run _ => run ≠ [] ∧ '{' ∉ unquoted none run
  | expression e => Enclosed '{' '}' e.source

theorem placed_append {offset : Nat} {tokens rest : List Token} :
    Placed offset (tokens ++ rest) ↔
      Placed offset tokens ∧ Placed (offset + byteSize (tokens.flatMap source)) rest := by
  induction tokens generalizing offset with
  | nil => simp [Placed]
  | cons token tokens ih => simp [Placed, ih, and_assoc, Nat.add_assoc]

theorem Placed.abut {offset : Nat} {tokens : List Token} (h : Placed offset tokens) :
    Abut offset tokens (offset + byteSize (tokens.flatMap source)) := by
  induction tokens generalizing offset with
  | nil => rfl
  | cons token tokens ih =>
    obtain ⟨hspan, hrest⟩ := h
    rw [List.flatMap_cons, byteSize_append, ← Nat.add_assoc]
    rw [Abut, hspan]
    exact ⟨rfl, ih hrest⟩

theorem Placed.slice {tokens : List Token} (h : Placed 0 tokens) :
    ∀ token ∈ tokens, token.span.slice (tokens.flatMap source) = .ok token.source := by
  intro token ht
  obtain ⟨before, after, rfl⟩ := List.append_of_mem ht
  obtain ⟨hspan, _⟩ := (placed_append.mp h).2
  have hslice := Place.slice_append 0 (before.flatMap source) token.source (after.flatMap source)
  rw [Span.slice, Place.start, hspan, List.flatMap_append, List.flatMap_cons, ← List.append_assoc]
  exact hslice

theorem brace_not_mem_unquoted {run : List Lexeme} (hl : Lexed braceCloser? run)
    (h : ∀ lexeme ∈ run, lexeme.isLiteral = true) : '{' ∉ unquoted none (spell run) := by
  induction hl with
  | nil => simp [unquoted]
  | last ht =>
    cases ht with
    | @quoted quote inside _ hq hn =>
      have hrun := unquoted_inside hn []
      rw [List.append_nil] at hrun
      simp [Lexeme.text, unquoted, hq, hrun]
    | unclosed => simp [Lexeme.isLiteral] at h
  | cons hc _ ih =>
    have ih := ih fun lexeme hm => h lexeme (by simp [hm])
    cases hc with
    | group => simp [Lexeme.isLiteral] at h
    | @quoted quote inside _ hq hn =>
      rw [Lexeme.spell_cons, Lexeme.text, unquoted_run hq hn]
      exact ih
    | @single c hb hq =>
      have hbrace : c ≠ '{' := braceCloser?_eq_none_iff.mp hb
      simp [Lexeme.text, unquoted, hq, ih, hbrace.symm]

/-- What is kept while tokens are made of lexemes that stand at an offset. -/
structure Laid (offset : Nat) (lexemes : List Lexeme) (tokens : List Token) : Prop where
  placed : Placed offset tokens
  spells : tokens.flatMap source = spell lexemes
  apart : tokens.IsChain fun s t => ¬ (s.isText = true ∧ t.isText = true)
  sound : ∀ token ∈ tokens, token.Sound

theorem laid_literal {run : List Lexeme} (hl : Lexed braceCloser? run)
    (h : ∀ lexeme ∈ run, lexeme.isLiteral = true) (offset : Nat) :
    Laid offset run (literal offset (spell run)) := by
  by_cases hr : spell run = []
  · rw [hr, literal_nil]
    exact ⟨trivial, hr.symm, .nil, by simp⟩
  · rw [literal_of_ne_nil hr]
    refine ⟨⟨rfl, trivial⟩, by simp [source], .singleton _, ?_⟩
    intro token ht
    rw [List.mem_singleton.mp ht]
    exact ⟨hr, brace_not_mem_unquoted hl h⟩

/-- Literal text, an expression and the tokens after it are laid out one after the other. -/
theorem Laid.append {offset : Nat} {run rest : List Lexeme} {before others : List Token}
    {opener : Char} {group : Text} {e : Expression} (hb : Laid offset run before)
    (hspan : e.span = ⟨offset + byteSize (spell run), byteSize group⟩) (hsource : e.source = group)
    (hg : Enclosed '{' '}' group)
    (ho : Laid (offset + byteSize (spell run) + byteSize group) rest others) :
    Laid offset (run ++ .group opener group :: rest) (before ++ expression e :: others) where
  placed := by
    rw [placed_append, hb.spells]
    refine ⟨hb.placed, ?_, ?_⟩
    · rw [span, source, hspan, hsource]
    · rw [source, hsource]
      exact ho.placed
  spells := by
    rw [List.flatMap_append, List.flatMap_cons, hb.spells, ho.spells, source, hsource]
    simp [Lexeme.text]
  apart := by
    refine List.isChain_append.mpr ⟨hb.apart, ?_, by simp [isText]⟩
    exact List.isChain_cons.mpr ⟨by simp [isText], ho.apart⟩
  sound := by
    intro token ht
    rcases List.mem_append.mp ht with ht | ht
    · exact hb.sound token ht
    · rcases List.mem_cons.mp ht with rfl | ht
      · rw [Sound, hsource]
        exact hg
      · exact ho.sound token ht

theorem laid_of_ofLexemes {offset : Nat} {run lexemes : List Lexeme} {tokens : List Token}
    (hl : Lexed braceCloser? (run ++ lexemes)) (hrun : ∀ lexeme ∈ run, lexeme.isLiteral = true)
    (h : ofLexemes offset run lexemes = .ok tokens) : Laid offset (run ++ lexemes) tokens := by
  induction lexemes generalizing offset run tokens with
  | nil =>
    rw [List.append_nil] at hl ⊢
    obtain rfl := Except.ok.inj h
    exact laid_literal hl hrun offset
  | cons lexeme rest ih =>
    have join (hlit : lexeme.isLiteral = true) :
        Laid offset (run ++ lexeme :: rest) tokens := by
      rw [ofLexemes_literal hlit] at h
      rw [List.append_cons] at hl ⊢
      refine ih hl ?_ h
      intro l hm
      rcases List.mem_append.mp hm with hm | hm
      · exact hrun l hm
      · rw [List.mem_singleton.mp hm]
        exact hlit
    cases lexeme with
    | quoted => exact join rfl
    | single => exact join rfl
    | unclosed => cases h
    | group opener g =>
      have hgroup := hl.of_append.1
      obtain ⟨e, others, he, ho, rfl⟩ := ofLexemes_group_eq_ok.mp h
      obtain ⟨hspan, hsource⟩ := Expression.span_source_of_ofBody he
      have hrest := (@Lexed.of_append _ [.group opener g] rest hgroup).1
      have hothers : Laid _ ([] ++ rest) others := ih hrest (by simp) ho
      exact (laid_literal hl.left hrun offset).append hspan hsource hgroup.enclosed.2 hothers

theorem laid_of_tokenize {template : Text} {tokens : List Token}
    (h : tokenize template = .ok tokens) :
    Laid 0 (Lexeme.read braceCloser? template) tokens := by
  rw [tokenize_eq (byteSize_lt_of_tokenize h)] at h
  have hl : Lexed braceCloser? ([] ++ Lexeme.read braceCloser? template) :=
    Lexeme.lexed_read bracketing_braceCloser? template
  exact laid_of_ofLexemes hl (by simp) h

theorem exists_group_of_mem {template : Text} {tokens : List Token} {e : Expression}
    (h : tokenize template = .ok tokens) (he : expression e ∈ tokens) :
    ∃ before group after, template = before ++ group ++ after ∧ Enclosed '{' '}' group ∧
      Expression.ofGroup (byteSize before) group = .ok e := by
  have hlaid := laid_of_tokenize h
  have hslice := hlaid.placed.slice _ he
  rw [hlaid.spells, Lexeme.spell_read, span, source, Span.slice] at hslice
  obtain ⟨position, group, henclosed, hgroup⟩ := exists_ofGroup_of_mem h he
  obtain ⟨hspan, rfl⟩ := Expression.span_source_of_ofBody hgroup
  obtain ⟨before, after, htemplate, hstart⟩ := Place.slice_eq_ok_iff.mp hslice
  obtain rfl : position = byteSize before := by
    rw [hspan, Span.mk.injEq, Place.start, Nat.zero_add] at hstart
    exact hstart.1
  exact ⟨before, e.source, after, htemplate, henclosed, hgroup⟩

/-- The tokens of a template tile it. -/
theorem tiling_of_tokenize {template : Text} {tokens : List Token}
    (h : tokenize template = .ok tokens) : Tiling template tokens := by
  have hl := laid_of_tokenize h
  have hspells : tokens.flatMap source = template := by rw [hl.spells, Lexeme.spell_read]
  have habut := hl.placed.abut
  have hslice := hl.placed.slice
  rw [Nat.zero_add] at habut
  rw [hspells] at habut hslice
  exact
    { abut := habut
      slice := hslice
      spells := hspells
      filled := fun run span ht => (hl.sound _ ht).1
      apart := hl.apart
      literal := fun run span ht => (hl.sound _ ht).2
      group := fun e he => hl.sound _ he }

theorem tiling_of_quoted_brace :
    tokenize "é'\x7b'\x7ba \x7bb\x7d\x7d".toList = .ok
      [text "é'\x7b'".toList ⟨0, 5⟩,
        expression ⟨[⟨"a \x7bb\x7d".toList, none, none, ⟨6, 5⟩⟩], ⟨5, 7⟩,
          "\x7ba \x7bb\x7d\x7d".toList⟩] ∧
    Tiling "é'\x7b'\x7ba \x7bb\x7d\x7d".toList
      [text "é'\x7b'".toList ⟨0, 5⟩,
        expression ⟨[⟨"a \x7bb\x7d".toList, none, none, ⟨6, 5⟩⟩], ⟨5, 7⟩,
          "\x7ba \x7bb\x7d\x7d".toList⟩] := by
  have h : tokenize "é'\x7b'\x7ba \x7bb\x7d\x7d".toList = .ok
      [text "é'\x7b'".toList ⟨0, 5⟩,
        expression ⟨[⟨"a \x7bb\x7d".toList, none, none, ⟨6, 5⟩⟩], ⟨5, 7⟩,
          "\x7ba \x7bb\x7d\x7d".toList⟩] := by
    decide +kernel
  exact ⟨h, tiling_of_tokenize h⟩

end Token

end Stencil
