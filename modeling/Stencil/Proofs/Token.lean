import Stencil.Token
import Stencil.Proofs.Expression

/-!
# What the tokens of a template are

The tokens of a template are told from its lexemes: every brace group is an
expression, and the lexemes between two groups are one run of literal text.
-/

set_option autoImplicit false

namespace Stencil

namespace Lexeme

def isLiteral : Lexeme → Bool
  | quoted _ => true
  | single _ => true
  | _ => false

theorem Lexed.enclosed {opener : Char} {group : Text} {rest : List Lexeme}
    (h : Lexed braceCloser? (.group opener group :: rest)) :
    opener = '{' ∧ Enclosed '{' '}' group := by
  cases h with
  | last ht => cases ht
  | cons hc _ =>
    cases hc with
    | group hb hg =>
      obtain ⟨rfl, rfl⟩ := braceCloser?_eq_some_iff.mp hb
      exact ⟨rfl, hg⟩

end Lexeme

namespace Token

open Lexeme (spell Closed Lexed)

def ofLexemes (offset : Nat) (run : List Lexeme) : List Lexeme → Outcome (List Token)
  | [] => .ok (literal offset (spell run))
  | .unclosed opener _ :: _ =>
    refuse .unmatchedBrace (.ofChar opener (offset + byteSize (spell run)))
  | .group _ group :: rest => do
    let e ← Expression.ofGroup (offset + byteSize (spell run)) group
    let others ← ofLexemes (offset + byteSize (spell run) + byteSize group) [] rest
    return literal offset (spell run) ++ expression e :: others
  | lexeme :: rest => ofLexemes offset (run ++ [lexeme]) rest

theorem literal_nil (offset : Nat) : literal offset [] = [] := rfl

theorem literal_of_ne_nil {run : Text} (h : run ≠ []) (offset : Nat) :
    literal offset run = [text run ⟨offset, byteSize run⟩] := by
  simp [literal, h]

theorem ofLexemes_literal {lexeme : Lexeme} (h : lexeme.isLiteral = true) (offset : Nat)
    (run rest : List Lexeme) :
    ofLexemes offset run (lexeme :: rest) = ofLexemes offset (run ++ [lexeme]) rest := by
  cases lexeme with
  | quoted => rfl
  | single => rfl
  | _ => simp [Lexeme.isLiteral] at h

theorem read_literal {lexeme : Lexeme} (h : lexeme.isLiteral = true) (place : Place)
    (position : Nat) (rest : List Lexeme) :
    read place position (lexeme :: rest) = read place (position + lexeme.size) rest := by
  cases lexeme with
  | quoted => rfl
  | single => rfl
  | _ => simp [Lexeme.isLiteral] at h

theorem read_nil (offset : Nat) (run : Text) :
    read ⟨offset, run⟩ (offset + byteSize run) [] = .ok (literal offset run) := by
  have h := Place.readTo_append offset run []
  rw [List.append_nil] at h
  rw [read, h]
  rfl

theorem read_group (offset : Nat) (run inside after : Text) (opener : Char) (rest : List Lexeme) :
    read ⟨offset, run ++ ('{' :: inside ++ ['}'] ++ after)⟩ (offset + byteSize run)
        (.group opener ('{' :: inside ++ ['}']) :: rest) =
      (Expression.ofGroup (offset + byteSize run) ('{' :: inside ++ ['}'])).bind fun e =>
        (read ⟨offset + byteSize run + byteSize ('{' :: inside ++ ['}']), after⟩
          (offset + byteSize run + byteSize ('{' :: inside ++ ['}'])) rest).bind fun others =>
            .ok (literal offset run ++ expression e :: others) := by
  have hgroup := Place.readTo_append (offset + byteSize run) ('{' :: inside ++ ['}']) after
  rw [read, Place.readTo_append]
  simp only [check_ok, bind, Except.bind, Expression.shrink_braced, Expression.read_braced,
    Span.stop, hgroup, ← Expression.ofGroup_braced, pure, Except.pure]

/-- Reading takes from the source what the lexemes already tell. -/
theorem read_eq {lexemes : List Lexeme} (h : Lexed braceCloser? lexemes) (offset : Nat)
    (run : List Lexeme) :
    read ⟨offset, spell run ++ spell lexemes⟩ (offset + byteSize (spell run)) lexemes =
      ofLexemes offset run lexemes := by
  induction lexemes generalizing offset run with
  | nil =>
    rw [Lexeme.spell_nil, List.append_nil]
    exact read_nil offset (spell run)
  | cons lexeme rest ih =>
    have ih := ih (@Lexed.of_append _ [lexeme] rest h).1
    have join (hl : lexeme.isLiteral = true) :
        read ⟨offset, spell run ++ spell (lexeme :: rest)⟩ (offset + byteSize (spell run))
          (lexeme :: rest) = ofLexemes offset run (lexeme :: rest) := by
      have ih := ih offset (run ++ [lexeme])
      simp only [Lexeme.spell_append, Lexeme.spell_cons, Lexeme.spell_nil, List.append_nil,
        List.append_assoc, byteSize_append, ← Nat.add_assoc] at ih
      rw [read_literal hl, ofLexemes_literal hl, Lexeme.spell_cons]
      exact ih
    cases lexeme with
    | quoted t => exact join rfl
    | single c => exact join rfl
    | unclosed opener t => rfl
    | group opener g =>
      obtain ⟨inside, rfl⟩ := h.enclosed.2.exists_inside (by decide)
      have ih := ih (offset + byteSize (spell run) + byteSize ('{' :: inside ++ ['}'])) []
      rw [Lexeme.spell_nil, List.nil_append, byteSize_nil, Nat.add_zero] at ih
      rw [Lexeme.spell_cons, Lexeme.text, read_group, ih]
      rfl

theorem ofLexemes_group_eq_ok {offset : Nat} {run rest : List Lexeme} {opener : Char}
    {group : Text} {tokens : List Token} :
    ofLexemes offset run (.group opener group :: rest) = .ok tokens ↔
      ∃ e others, Expression.ofGroup (offset + byteSize (spell run)) group = .ok e ∧
        ofLexemes (offset + byteSize (spell run) + byteSize group) [] rest = .ok others ∧
        tokens = literal offset (spell run) ++ expression e :: others := by
  rw [ofLexemes]
  cases Expression.ofGroup (offset + byteSize (spell run)) group with
  | error failure => simp [bind, Except.bind]
  | ok e =>
    cases ofLexemes (offset + byteSize (spell run) + byteSize group) [] rest with
    | error failure => simp [bind, Except.bind]
    | ok others => simp [bind, Except.bind, pure, Except.pure, eq_comm]

theorem tokenize_eq {template : Text} (h : byteSize template < offsetLimit) :
    tokenize template = ofLexemes 0 [] (Lexeme.read braceCloser? template) := by
  have hr := read_eq (Lexeme.lexed_read bracketing_braceCloser? template) 0 []
  rw [Lexeme.spell_read, Lexeme.spell_nil, List.nil_append, byteSize_nil, Nat.add_zero] at hr
  rw [tokenize, Span.ofText, if_pos h, ← hr]
  rfl

theorem tokenize_group {text : Text} {e : Expression} (h : Enclosed '{' '}' text)
    (hs : byteSize text < offsetLimit) (he : Expression.ofGroup 0 text = .ok e) :
    tokenize text = .ok [expression e] := by
  have hclosed : Lexeme.Closed braceCloser? (.group '{' text) := .group rfl h
  have hread := hclosed.read_append bracketing_braceCloser? []
  rw [Lexeme.text, List.append_nil, Lexeme.read_nil] at hread
  rw [tokenize_eq hs, hread]
  exact ofLexemes_group_eq_ok.mpr ⟨e, [], he, rfl, rfl⟩

theorem byteSize_lt_of_tokenize {template : Text} {tokens : List Token}
    (h : tokenize template = .ok tokens) : byteSize template < offsetLimit := by
  rw [tokenize, Span.ofText] at h
  by_cases hs : byteSize template < offsetLimit
  · exact hs
  · rw [if_neg hs] at h
    cases h

inductive Origin : Token → Prop
  | literal {run : List Lexeme} (offset : Nat) (hl : Lexed braceCloser? run)
      (h : ∀ lexeme ∈ run, lexeme.isLiteral = true) (hne : spell run ≠ []) :
      Origin (text (spell run) ⟨offset, byteSize (spell run)⟩)
  | group {position : Nat} {group : Text} {e : Expression} (h : Enclosed '{' '}' group)
      (he : Expression.ofGroup position group = .ok e) : Origin (expression e)

theorem origin_literal {run : List Lexeme} (hl : Lexed braceCloser? run)
    (h : ∀ lexeme ∈ run, lexeme.isLiteral = true) (offset : Nat) :
    ∀ token ∈ literal offset (spell run), Origin token := by
  intro token ht
  by_cases hr : spell run = []
  · rw [hr, literal_nil] at ht
    cases ht
  · rw [literal_of_ne_nil hr] at ht
    rw [List.mem_singleton.mp ht]
    exact .literal offset hl h hr

theorem origin_of_ofLexemes {offset : Nat} {run lexemes : List Lexeme} {tokens : List Token}
    (hl : Lexed braceCloser? (run ++ lexemes)) (hrun : ∀ lexeme ∈ run, lexeme.isLiteral = true)
    (h : ofLexemes offset run lexemes = .ok tokens) : ∀ token ∈ tokens, Origin token := by
  induction lexemes generalizing offset run tokens with
  | nil =>
    rw [List.append_nil] at hl
    obtain rfl := Except.ok.inj h
    exact origin_literal hl hrun offset
  | cons lexeme rest ih =>
    have join (hlit : lexeme.isLiteral = true) : ∀ token ∈ tokens, Origin token := by
      rw [ofLexemes_literal hlit] at h
      rw [List.append_cons] at hl
      refine ih hl ?_ h
      intro l hm
      rcases List.mem_append.mp hm with hm | hm
      · exact hrun l hm
      · rw [List.mem_singleton.mp hm]
        exact hlit
    cases lexeme with
    | quoted => exact join rfl
    | single => exact join rfl
    | unclosed => cases h
    | group opener group =>
      have hgroup := hl.of_append.1
      have hrest : Lexed braceCloser? ([] ++ rest) :=
        (@Lexed.of_append _ [.group opener group] rest hgroup).1
      obtain ⟨e, others, he, ho, rfl⟩ := ofLexemes_group_eq_ok.mp h
      intro token ht
      rcases List.mem_append.mp ht with ht | ht
      · exact origin_literal hl.left hrun offset token ht
      · rcases List.mem_cons.mp ht with rfl | ht
        · exact .group hgroup.enclosed.2 he
        · exact ih hrest (by simp) ho token ht

theorem origin_of_tokenize {template : Text} {tokens : List Token}
    (h : tokenize template = .ok tokens) : ∀ token ∈ tokens, Origin token := by
  rw [tokenize_eq (byteSize_lt_of_tokenize h)] at h
  have hl : Lexed braceCloser? ([] ++ Lexeme.read braceCloser? template) :=
    Lexeme.lexed_read bracketing_braceCloser? template
  exact origin_of_ofLexemes hl (by simp) h

/-- The expressions among the tokens are those of the groups. -/
theorem exists_ofGroup_of_mem {template : Text} {tokens : List Token} {e : Expression}
    (h : tokenize template = .ok tokens) (he : expression e ∈ tokens) :
    ∃ position group, Enclosed '{' '}' group ∧ Expression.ofGroup position group = .ok e := by
  cases origin_of_tokenize h _ he with
  | @group position group _ henclosed hgroup => exact ⟨position, group, henclosed, hgroup⟩

end Token

end Stencil
