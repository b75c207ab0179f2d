import Stencil.Proofs.Token.Append
import Stencil.Proofs.Token.Refusal

/-!
# Where a template fails

A template fails at the first brace that opens no expression. What stands before
this brace has tokens, and if the brace is closed, what stands after its group has
no say: the failure is the same whatever follows. Inside a group it is never a
brace that lacks its closer.
-/

set_option autoImplicit false

namespace Stencil

namespace Token

open Lexeme (spell Closed Lexed)

theorem Fails.cases_brace {position : Nat} {lexeme : Lexeme} {rest : List Lexeme}
    {failure : Failure} (h : Fails position lexeme failure)
    (hl : Lexed braceCloser? (lexeme :: rest)) :
    (∃ text, lexeme = .unclosed '{' text ∧
      failure = .refused ⟨.unmatchedBrace, .ofChar '{' position⟩) ∨
    (∃ group, lexeme = .group '{' group ∧ Enclosed '{' '}' group ∧
      Expression.ofGroup position group = .error failure) := by
  cases h with
  | unclosed opener text =>
    obtain ⟨_, _, _, _, hb, _⟩ := hl.unclosed
    obtain ⟨rfl, _⟩ := braceCloser?_eq_some_iff.mp hb
    exact .inl ⟨text, rfl, rfl⟩
  | @group opener group _ hg =>
    obtain ⟨rfl, henclosed⟩ := hl.enclosed
    exact .inr ⟨group, rfl, henclosed, hg⟩

/-- Only square brackets and parentheses can lack their closers in a group. -/
theorem bracket_of_unmatchedPair :
    (∀ (template : Text) (error : SyntaxError) (opener : Char),
      tokenize template = .error (.refused error) → error.cause = .unmatchedPair opener →
      opener = '[' ∨ opener = '(') ∧
    (∀ (text : Text) (error : SyntaxError) (opener : Char), Enclosed '{' '}' text →
      Expression.parse text = .error (.refused error) → error.cause = .unmatchedPair opener →
      opener = '[' ∨ opener = '(') := by
  constructor
  · intro template error opener h hcause
    obtain ⟨before, lexeme, after, hread, _, hfails⟩ :=
      fails_of_tokenize (byteSize_lt_of_refused h) h
    have hl := Lexeme.lexed_read bracketing_braceCloser? template
    rw [hread] at hl
    rcases hfails.cases_brace hl.of_append.1 with ⟨_, _, hbrace⟩ | ⟨group, _, henclosed, hg⟩
    · rw [Failure.refused.inj hbrace] at hcause
      cases hcause
    · exact Expression.bracket_of_ofGroup henclosed hg hcause
  · intro text error opener henclosed h hcause
    rw [Expression.parse_eq_ofGroup henclosed (Expression.byteSize_lt_of_refused h)] at h
    exact Expression.bracket_of_ofGroup henclosed h hcause

theorem bracket_of_hidden_brace :
    (tokenize "x\x7b'\x7b'[\x7d\x7d".toList =
        .error (.refused ⟨.unmatchedPair '[', ⟨5, 1⟩⟩) ∧ ('[' = '[' ∨ '[' = '(')) ∧
    (Enclosed '{' '}' "\x7b(\x7b)\x7d(\x7d".toList ∧
      Expression.parse "\x7b(\x7b)\x7d(\x7d".toList =
        .error (.refused ⟨.unmatchedPair '(', ⟨5, 1⟩⟩) ∧ ('(' = '[' ∨ '(' = '(')) := by
  have htokenize : tokenize "x\x7b'\x7b'[\x7d\x7d".toList =
      .error (.refused ⟨.unmatchedPair '[', ⟨5, 1⟩⟩) := by
    decide +kernel
  have hparse : Expression.parse "\x7b(\x7b)\x7d(\x7d".toList =
      .error (.refused ⟨.unmatchedPair '(', ⟨5, 1⟩⟩) := by
    decide +kernel
  have henclosed : Enclosed '{' '}' "\x7b(\x7b)\x7d(\x7d".toList :=
    Expression.isBraced_iff.mp (by decide +kernel)
  exact ⟨⟨htokenize, bracket_of_unmatchedPair.1 _ _ _ htokenize rfl⟩,
    henclosed, hparse, bracket_of_unmatchedPair.2 _ _ _ henclosed hparse rfl⟩

/-- A group that is refused refuses every template that has tokens up to it. -/
theorem tokenize_group_eq_error {before : List Lexeme} {tokens : List Token} {group : Text}
    {failure : Failure} (hc : ∀ lexeme ∈ before, Closed braceCloser? lexeme)
    (hb : ofLexemes 0 [] before = .ok tokens) (henclosed : Enclosed '{' '}' group)
    (hg : Expression.ofGroup (byteSize (spell before)) group = .error failure) (next : Text)
    (hs : byteSize (spell before ++ group ++ next) < offsetLimit) :
    tokenize (spell before ++ group ++ next) = .error failure := by
  have hgroup : Closed braceCloser? (.group '{' group) := .group rfl henclosed
  have hread := hgroup.read_append bracketing_braceCloser? next
  rw [Lexeme.text] at hread
  rw [tokenize_eq hs, List.append_assoc,
    Lexeme.read_spell_append bracketing_braceCloser? hc, hread, ofLexemes_append_eq_bind, hb]
  simp only [Except.bind, List.nil_append, Nat.zero_add, ofLexemes, Lexeme.spell_nil, byteSize_nil,
    Nat.add_zero, hg]
  rfl

/-- The error of a template and the lexeme that it is about, with the lexemes before it. A brace
without its closer is reported where it stands. Any other error lies in a group, and is the
error of all templates that agree up to the end of this group. -/
structure Leftmost (template : Text) (error : SyntaxError) (before : List Lexeme)
    (lexeme : Lexeme) : Prop where
  read : ∃ after, Lexeme.read braceCloser? template = before ++ lexeme :: after
  succeeds : ∃ tokens, tokenize (spell before) = .ok tokens
  brace : error.cause = .unmatchedBrace → (∃ text, lexeme = .unclosed '{' text) ∧
    error.span = .ofChar '{' (byteSize (spell before))
  group : error.cause ≠ .unmatchedBrace → ∃ group, lexeme = .group '{' group ∧
    Enclosed '{' '}' group ∧
    (byteSize (spell before) ≤ error.span.start ∧ error.span.start < error.span.stop ∧
      error.span.stop ≤ byteSize (spell before) + byteSize group) ∧
    ∀ next, byteSize (spell before ++ group ++ next) < offsetLimit →
      tokenize (spell before ++ group ++ next) = .error (.refused error)

/-- A template fails for the leftmost of its errors, whatever follows. -/
theorem leftmost_of_tokenize {template : Text} {failure : Failure}
    (hs : byteSize template < offsetLimit) (h : tokenize template = .error failure) :
    ∃ error before lexeme, failure = .refused error ∧
      Leftmost template error before lexeme := by
  obtain ⟨before, lexeme, after, hread, ⟨tokens, hb⟩, hfails⟩ := fails_of_tokenize hs h
  have hl := Lexeme.lexed_read bracketing_braceCloser? template
  have hspell := Lexeme.spell_read braceCloser? template
  rw [hread] at hl hspell
  -- Cut off before the failing lexeme, the template has the same lexemes up to there.
  have hbefore : tokenize (spell before) = .ok tokens := by
    have hsize : byteSize (spell before) < offsetLimit := by
      rw [← hspell, Lexeme.spell_append, byteSize_append] at hs
      omega
    rw [tokenize_eq hsize, hl.left.read_spell bracketing_braceCloser?, hb]
  rcases hfails.cases_brace hl.of_append.1 with ⟨text, rfl, rfl⟩ | ⟨group, rfl, henclosed, hg⟩
  · exact ⟨_, before, _, rfl,
      { read := ⟨after, hread⟩
        succeeds := ⟨tokens, hbefore⟩
        brace := fun _ => ⟨⟨text, rfl⟩, rfl⟩
        group := fun hne => absurd rfl hne }⟩
  · obtain ⟨error, rfl, hrefuses⟩ := Expression.refuses_of_ofGroup henclosed hg
    have hc := hl.of_append.2 (by simp)
    exact ⟨error, before, _, rfl,
      { read := ⟨after, hread⟩
        succeeds := ⟨tokens, hbefore⟩
        brace := fun hcause => absurd hcause hrefuses.cause_ne
        group := fun _ => ⟨group, rfl, henclosed, hrefuses.within henclosed,
          tokenize_group_eq_error hc hb henclosed hg⟩ }⟩

theorem leftmost_of_second_group :
    tokenize "é'\x7b'\x7ba\x7d\x7bk: b, (c\x7d \x7b".toList =
      .error (.refused ⟨.unmatchedPair '(', ⟨15, 1⟩⟩) ∧
    ∃ before lexeme, Leftmost "é'\x7b'\x7ba\x7d\x7bk: b, (c\x7d \x7b".toList
      ⟨.unmatchedPair '(', ⟨15, 1⟩⟩ before lexeme := by
  have h : tokenize "é'\x7b'\x7ba\x7d\x7bk: b, (c\x7d \x7b".toList =
      .error (.refused ⟨.unmatchedPair '(', ⟨15, 1⟩⟩) := by
    decide +kernel
  obtain ⟨error, before, lexeme, heq, hleftmost⟩ := leftmost_of_tokenize (by decide) h
  obtain rfl := Failure.refused.inj heq
  exact ⟨h, before, lexeme, hleftmost⟩

end Token

end Stencil
