import Stencil.Proofs.Token.Failure

/-!
# Templates that are one brace group

A text that is one brace group can be read as a template and as an expression. A
template reads the group from where a scan comes upon its opening brace, an
expression takes its own outer braces off; both see the same body at the same
offset, so they give the same items and spans, or the same error.
-/

set_option autoImplicit false

namespace Stencil

namespace Token

theorem tokenize_group_eq_refused {text : Text} {error : SyntaxError} (h : Enclosed '{' '}' text)
    (hs : byteSize text < offsetLimit)
    (hg : Expression.ofGroup 0 text = .error (.refused error)) :
    tokenize text = .error (.refused error) := by
  have htokens : ofLexemes 0 [] [] = .ok [] := rfl
  have herror := tokenize_group_eq_error (by simp) htokens h hg []
  rw [Lexeme.spell_nil, List.nil_append, List.append_nil] at herror
  exact herror hs

/-- A brace group is one token of the expression that it is by itself, or it is refused for
the same error both ways. -/
theorem tokenize_agrees_parse {text : Text} (h : Enclosed '{' '}' text)
    (hs : byteSize text < offsetLimit) :
    (∃ e, tokenize text = .ok [expression e] ∧ Expression.parse text = .ok e) ∨
      ∃ error, tokenize text = .error (.refused error) ∧
        Expression.parse text = .error (.refused error) := by
  have hparse := Expression.parse_eq_ofGroup h hs
  cases hg : Expression.ofGroup 0 text with
  | ok e =>
    left
    refine ⟨e, tokenize_group h hs hg, ?_⟩
    rw [hparse, hg]
  | error failure =>
    obtain ⟨error, rfl, _⟩ := Expression.refuses_of_ofGroup h hg
    right
    refine ⟨error, tokenize_group_eq_refused h hs hg, ?_⟩
    rw [hparse, hg]

theorem tokenize_agrees_parse_mixed :
    Enclosed '{' '}' "\x7bé: \x7b\x7d, '[,' if b\x7d".toList ∧
    Expression.parse "\x7bé: \x7b\x7d, '[,' if b\x7d".toList =
      .error (.refused ⟨.mixedItems "\x7bé: \x7b\x7d, '[,' if b\x7d".toList, ⟨0, 19⟩⟩) ∧
    tokenize "\x7bé: \x7b\x7d, '[,' if b\x7d".toList =
      .error (.refused ⟨.mixedItems "\x7bé: \x7b\x7d, '[,' if b\x7d".toList, ⟨0, 19⟩⟩) := by
  have h : Enclosed '{' '}' "\x7bé: \x7b\x7d, '[,' if b\x7d".toList :=
    Expression.isBraced_iff.mp (by decide +kernel)
  have hparse : Expression.parse "\x7bé: \x7b\x7d, '[,' if b\x7d".toList =
      .error (.refused ⟨.mixedItems "\x7bé: \x7b\x7d, '[,' if b\x7d".toList, ⟨0, 19⟩⟩) := by
    decide +kernel
  refine ⟨h, hparse, ?_⟩
  rcases tokenize_agrees_parse h (by decide) with ⟨e, _, he⟩ | ⟨error, htokenize, herror⟩
  · rw [hparse] at he
    cases he
  · rw [hparse] at herror
    rw [htokenize, Except.error.inj herror]

end Token

end Stencil
