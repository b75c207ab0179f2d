import Stencil.Proofs.Token.Failure

/-!
# Braces that are never closed

A brace without its closer takes the rest of its template with it, quoted runs and all. It
lacks as many closers as opening braces outnumber closing ones from there on. A template
with fewer closers than that put at its end fails for the same brace, and with that many or
more it fails for no brace at all.
-/

set_option autoImplicit false

namespace Stencil

def surplus (t : Text) : Int := t.count '{' - t.count '}'

theorem Lexeme.read_closers (j : Nat) :
    read braceCloser? (List.replicate j '}') = List.replicate j (.single '}') := by
  induction j with
  | zero => exact read_nil
  | succ j ih => rw [List.replicate_succ, read_single rfl rfl, ih, List.replicate_succ]

namespace Token

open Lexeme (spell Closed)

theorem exists_unclosed {template : Text} {span : Span}
    (h : tokenize template = .error (.refused ⟨.unmatchedBrace, span⟩)) :
    ∃ before inside, Lexeme.read braceCloser? template =
        before ++ [.unclosed '{' ('{' :: inside)] ∧
      splitGroup? '{' '}' 0 inside = none ∧ (∃ tokens, ofLexemes 0 [] before = .ok tokens) ∧
      span = .ofChar '{' (byteSize (spell before)) := by
  obtain ⟨before, lexeme, after, hread, htokens, hfails⟩ :=
    fails_of_tokenize (byteSize_lt_of_refused h) h
  have hl := Lexeme.lexed_read bracketing_braceCloser? template
  rw [hread] at hl
  rcases hfails.cases_brace hl.of_append.1 with ⟨text, rfl, hbrace⟩ | ⟨group, _, henclosed, hg⟩
  · obtain ⟨rfl, closer, inside, rfl, hb, hnone⟩ := hl.of_append.1.unclosed
    obtain ⟨_, rfl⟩ := braceCloser?_eq_some_iff.mp hb
    have hspan := congrArg SyntaxError.span (Failure.refused.inj hbrace)
    exact ⟨before, inside, hread, hnone, htokens, hspan⟩
  · obtain ⟨error, herror, hrefuses⟩ := Expression.refuses_of_ofGroup henclosed hg
    obtain rfl := Failure.refused.inj herror
    exact absurd rfl hrefuses.cause_ne

section Repair

variable {before : List Lexeme} {inside : Text}

theorem tokenize_unclosed {tokens : List Token}
    (hc : ∀ lexeme ∈ before, Closed braceCloser? lexeme)
    (hb : ofLexemes 0 [] before = .ok tokens) (hn : splitGroup? '{' '}' 0 inside = none)
    (hs : byteSize (spell before ++ '{' :: inside) < offsetLimit) :
    tokenize (spell before ++ '{' :: inside) =
      .error (.refused ⟨.unmatchedBrace, .ofChar '{' (byteSize (spell before))⟩) := by
  rw [tokenize_eq hs, Lexeme.read_spell_append bracketing_braceCloser? hc,
    Lexeme.read_unclosed (show braceCloser? '{' = some '}' from rfl) hn, ofLexemes_append_eq_bind,
    hb]
  simp [Except.bind, ofLexemes, refuse, Except.map]

theorem closed_of_closers (hc : ∀ lexeme ∈ before, Closed braceCloser? lexeme) {s : Text} {j : Nat}
    (hg : splitGroup? '{' '}' 0 inside = some (s, List.replicate j '}')) :
    ∀ lexeme ∈ Lexeme.read braceCloser? (spell before ++ '{' :: inside),
      Closed braceCloser? lexeme := by
  rw [Lexeme.read_spell_append bracketing_braceCloser? hc,
    Lexeme.read_group (show braceCloser? '{' = some '}' from rfl) hg, Lexeme.read_closers]
  intro lexeme hl
  rcases List.mem_append.mp hl with hl | hl
  · exact hc lexeme hl
  · rcases List.mem_cons.mp hl with rfl | hl
    · exact .group rfl (enclosed_of_splitGroup? (by decide) hg)
    · rw [List.eq_of_mem_replicate hl]
      exact .single rfl rfl

theorem ne_unmatchedBrace_of_closed {template : Text}
    (hc : ∀ lexeme ∈ Lexeme.read braceCloser? template, Closed braceCloser? lexeme) (span : Span) :
    tokenize template ≠ .error (.refused ⟨.unmatchedBrace, span⟩) := by
  intro h
  obtain ⟨before, inside, hread, _⟩ := exists_unclosed h
  have hlast := hc (.unclosed '{' ('{' :: inside)) (by rw [hread]; simp)
  cases hlast

end Repair

/-- A template that fails for a brace has more opening than closing braces from there on. With
fewer closers at its end than the difference it fails for the same brace, else for no brace. -/
theorem tokenize_append_closers {template : Text} {span : Span}
    (h : tokenize template = .error (.refused ⟨.unmatchedBrace, span⟩)) :
    ∃ before rest, template = before ++ rest ∧ span = ⟨byteSize before, 1⟩ ∧ 1 ≤ surplus rest ∧
      ∀ j : Nat, byteSize (template ++ List.replicate j '}') < offsetLimit →
        ((∃ other, tokenize (template ++ List.replicate j '}') =
            .error (.refused ⟨.unmatchedBrace, other⟩)) ↔ (j : Int) < surplus rest) ∧
        ((j : Int) < surplus rest → tokenize (template ++ List.replicate j '}') =
          .error (.refused ⟨.unmatchedBrace, span⟩)) := by
  obtain ⟨before, inside, hread, hnone, ⟨tokens, hb⟩, rfl⟩ := exists_unclosed h
  have hl := Lexeme.lexed_read bracketing_braceCloser? template
  rw [hread] at hl
  have hc := hl.of_append.2 (by simp)
  have hspell := Lexeme.spell_read braceCloser? template
  rw [hread, Lexeme.spell_append, Lexeme.spell_cons, Lexeme.spell_nil, List.append_nil,
    Lexeme.text] at hspell
  subst hspell
  -- The scan goes on in the closers, with one group open for each closer that is lacking but one.
  obtain ⟨depth, hdepth, hscan⟩ := splitGroup?_append (by decide) hnone
  have hsurplus : surplus ('{' :: inside) = depth + 1 := by
    rw [surplus, List.count_cons_self, List.count_cons_of_ne (by decide)]
    omega
  refine ⟨spell before, '{' :: inside, rfl, rfl, by omega, fun j hs => ?_⟩
  have hrest := hscan (List.replicate j '}')
  rw [splitGroup?_replicate (by decide)] at hrest
  rw [List.append_assoc, List.cons_append] at hs ⊢
  by_cases hj : j ≤ depth
  · rw [if_pos hj, Option.map_none] at hrest
    have hfails := tokenize_unclosed hc hb hrest hs
    exact ⟨⟨fun _ => by omega, fun _ => ⟨_, hfails⟩⟩, fun _ => hfails⟩
  · rw [if_neg hj, Option.map_some] at hrest
    have hclosed := closed_of_closers hc hrest
    refine ⟨⟨?_, fun hlt => by omega⟩, fun hlt => by omega⟩
    rintro ⟨other, hfails⟩
    exact absurd hfails (ne_unmatchedBrace_of_closed hclosed other)

theorem tokenize_append_closers_open_quote :
    tokenize "é'\x7b'\x7ba\x7d\x7b\x7d\x7b 'b, \x7bc".toList =
      .error (.refused ⟨.unmatchedBrace, ⟨10, 1⟩⟩) ∧
    tokenize ("é'\x7b'\x7ba\x7d\x7b\x7d\x7b 'b, \x7bc".toList ++ List.replicate 1 '}') =
      .error (.refused ⟨.unmatchedBrace, ⟨10, 1⟩⟩) ∧
    ¬ ∃ span, tokenize ("é'\x7b'\x7ba\x7d\x7b\x7d\x7b 'b, \x7bc".toList ++ List.replicate 2 '}') =
      .error (.refused ⟨.unmatchedBrace, span⟩) := by
  have h : tokenize "é'\x7b'\x7ba\x7d\x7b\x7d\x7b 'b, \x7bc".toList =
      .error (.refused ⟨.unmatchedBrace, ⟨10, 1⟩⟩) := by
    decide +kernel
  obtain ⟨before, rest, htext, hspan, _, hall⟩ := tokenize_append_closers h
  have hbefore : 10 = byteSize before := congrArg Span.start hspan
  have hcut : splitBytes? 10 "é'\x7b'\x7ba\x7d\x7b\x7d\x7b 'b, \x7bc".toList =
      some (before, rest) := by
    rw [hbefore, htext, splitBytes?_append]
  have hrest : surplus rest = 2 := by
    have hdecided : (splitBytes? 10 "é'\x7b'\x7ba\x7d\x7b\x7d\x7b 'b, \x7bc".toList).map
        (fun cut => surplus cut.2) = some 2 := by decide +kernel
    rw [hcut] at hdecided
    exact Option.some.inj hdecided
  refine ⟨h, (hall 1 (by decide +kernel)).2 (by omega), fun hfails => ?_⟩
  have := (hall 2 (by decide +kernel)).1.mp hfails
  omega

end Token

end Stencil
