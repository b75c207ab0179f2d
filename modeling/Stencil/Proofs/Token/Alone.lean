import Stencil.Proofs.Token.Chunk
import Stencil.Proofs.Token.Tiling

/-!
# Tokens by themselves

A token needs nothing of the template around it. Its text, cut out and read by
itself, gives one token, and this is the token itself but for its place: all its
spans are nearer to the start by as many bytes as stood before it.
-/

set_option autoImplicit false

namespace Stencil

namespace Token

open Lexeme (spell Lexed)

theorem tokenize_spell {run : List Lexeme} (hl : Lexed braceCloser? run)
    (h : ∀ lexeme ∈ run, lexeme.isLiteral = true) (hs : byteSize (spell run) < offsetLimit) :
    tokenize (spell run) = .ok (literal 0 (spell run)) := by
  have hrun := ofLexemes_append h 0 [] []
  rw [List.append_nil, List.nil_append] at hrun
  rw [tokenize_eq hs, hl.read_spell bracketing_braceCloser?, hrun, ofLexemes]

/-- Where a token comes from is told by its own text, its place apart. -/
theorem Origin.alone {token : Token} (h : Origin token) (hs : byteSize token.source < offsetLimit) :
    ∃ first, tokenize token.source = .ok [first] ∧ first.shift token.span.start = token := by
  cases h with
  | @literal run offset hl hlit hne =>
    have hread := tokenize_spell hl hlit hs
    rw [literal_of_ne_nil hne] at hread
    refine ⟨_, hread, ?_⟩
    simp [shift, Span.shift, span]
  | @group position group e henclosed he =>
    obtain ⟨hspan, hsource⟩ := Expression.span_source_of_ofBody he
    have hshift := Expression.ofGroup_shift 0 position group
    rw [Nat.zero_add, he] at hshift
    obtain ⟨first, hfirst, hmove⟩ := Outcome.shift_eq_ok_iff.mp hshift.symm
    rw [source, hsource] at hs ⊢
    refine ⟨expression first, tokenize_group henclosed hs hfirst, ?_⟩
    rw [shift, span, hspan, hmove]

theorem byteSize_source_le {template : Text} {tokens : List Token} {token : Token}
    (h : tokenize template = .ok tokens) (ht : token ∈ tokens) :
    byteSize token.source ≤ byteSize template := by
  have hspells := (laid_of_tokenize h).spells
  rw [Lexeme.spell_read] at hspells
  obtain ⟨before, after, rfl⟩ := List.append_of_mem ht
  rw [← hspells, List.flatMap_append, List.flatMap_cons, byteSize_append, byteSize_append]
  omega

/-- The text of each token of a template, read by itself, is that one token at the start. -/
theorem tokenize_source {template : Text} {tokens : List Token}
    (h : tokenize template = .ok tokens) :
    ∀ token ∈ tokens, ∃ first, tokenize token.source = .ok [first] ∧
      first.shift token.span.start = token := by
  intro token ht
  have hle := byteSize_source_le h ht
  have hs := byteSize_lt_of_tokenize h
  exact (origin_of_tokenize h token ht).alone (by omega)

theorem tokenize_source_open_quote :
    tokenize "é\x7bk: a?\x7d'\x7b".toList = .ok
      [text "é".toList ⟨0, 2⟩,
        expression ⟨[⟨['a'], some ['k'], some existence, ⟨3, 5⟩⟩], ⟨2, 7⟩, "\x7bk: a?\x7d".toList⟩,
        text "'\x7b".toList ⟨9, 2⟩] ∧
    (∃ first, tokenize "\x7bk: a?\x7d".toList = .ok [first] ∧ first.shift 2 = expression
      ⟨[⟨['a'], some ['k'], some existence, ⟨3, 5⟩⟩], ⟨2, 7⟩, "\x7bk: a?\x7d".toList⟩) ∧
    ∃ first, tokenize "'\x7b".toList = .ok [first] ∧
      first.shift 9 = text "'\x7b".toList ⟨9, 2⟩ := by
  have h : tokenize "é\x7bk: a?\x7d'\x7b".toList = .ok
      [text "é".toList ⟨0, 2⟩,
        expression ⟨[⟨['a'], some ['k'], some existence, ⟨3, 5⟩⟩], ⟨2, 7⟩, "\x7bk: a?\x7d".toList⟩,
        text "'\x7b".toList ⟨9, 2⟩] := by
    decide +kernel
  have hgroup := tokenize_source h _ (List.mem_cons_of_mem _ List.mem_cons_self)
  have hquote := tokenize_source h _
    (List.mem_cons_of_mem _ (List.mem_cons_of_mem _ List.mem_cons_self))
  exact ⟨h, hgroup, hquote⟩

end Token

end Stencil
