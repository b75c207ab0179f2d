import Stencil.Proofs.Expression.Refusal
import Stencil.Proofs.Token

/-!
# What a template is refused for

A template is refused for a brace group that never ends or for what one of its
groups is refused for. Reading the items of a body refuses nothing, so an opener
without its closer is always one that the splitter came upon.
-/

set_option autoImplicit false

namespace Stencil

open Lexeme (spell)

namespace Token

theorem byteSize_lt_of_refused {template : Text} {error : SyntaxError}
    (h : tokenize template = .error (.refused error)) : byteSize template < offsetLimit := by
  rw [tokenize, Span.ofText] at h
  by_cases hs : byteSize template < offsetLimit
  · exact hs
  · rw [if_neg hs] at h
    cases h

inductive Fails (position : Nat) : Lexeme → Failure → Prop
  | unclosed (opener : Char) (text : Text) :
      Fails position (.unclosed opener text)
        (.refused ⟨.unmatchedBrace, .ofChar opener position⟩)
  | group (opener : Char) {group : Text} {failure : Failure}
      (h : Expression.ofGroup position group = .error failure) :
      Fails position (.group opener group) failure

/-- Tokens fail for one of the lexemes, where it stands, and those before it have tokens. -/
theorem fails_of_ofLexemes {offset : Nat} {run lexemes : List Lexeme} {failure : Failure}
    (h : ofLexemes offset run lexemes = .error failure) :
    ∃ before lexeme after, lexemes = before ++ lexeme :: after ∧
      (∃ tokens, ofLexemes offset run before = .ok tokens) ∧
      Fails (offset + byteSize (spell (run ++ before))) lexeme failure := by
  induction lexemes generalizing offset run with
  | nil => cases h
  | cons lexeme rest ih =>
    have join (hlit : lexeme.isLiteral = true) : ∃ before lexeme' after,
        lexeme :: rest = before ++ lexeme' :: after ∧
          (∃ tokens, ofLexemes offset run before = .ok tokens) ∧
          Fails (offset + byteSize (spell (run ++ before))) lexeme' failure := by
      rw [ofLexemes_literal hlit] at h
      obtain ⟨before, lexeme', after, hrest, htokens, hfails⟩ := ih h
      refine ⟨lexeme :: before, lexeme', after, by rw [hrest]; rfl, ?_, ?_⟩
      · rwa [ofLexemes_literal hlit]
      · rwa [List.append_assoc] at hfails
    cases lexeme with
    | quoted => exact join rfl
    | single => exact join rfl
    | unclosed opener text =>
      obtain rfl := Except.error.inj h
      refine ⟨[], .unclosed opener text, rest, rfl, ⟨_, rfl⟩, ?_⟩
      rw [List.append_nil]
      exact .unclosed opener text
    | group opener group =>
      rw [ofLexemes] at h
      cases he : Expression.ofGroup (offset + byteSize (spell run)) group with
      | error failure' =>
        rw [he] at h
        obtain rfl : failure' = failure := Except.error.inj h
        refine ⟨[], .group opener group, rest, rfl, ⟨_, rfl⟩, ?_⟩
        rw [List.append_nil]
        exact .group opener he
      | ok e =>
        simp only [he, bind, Except.bind] at h
        split at h
        next failure' ho =>
          obtain rfl : failure' = failure := Except.error.inj h
          obtain ⟨before, lexeme', after, hrest, ⟨others, hothers⟩, hfails⟩ := ih ho
          refine ⟨.group opener group :: before, lexeme', after, by rw [hrest]; rfl, ?_, ?_⟩
          · exact ⟨_, ofLexemes_group_eq_ok.mpr ⟨e, others, he, hothers, rfl⟩⟩
          · simpa [Lexeme.text, Nat.add_assoc] using hfails
        next => cases h

theorem fails_of_tokenize {template : Text} {failure : Failure}
    (hs : byteSize template < offsetLimit) (h : tokenize template = .error failure) :
    ∃ before lexeme after, Lexeme.read braceCloser? template = before ++ lexeme :: after ∧
      (∃ tokens, ofLexemes 0 [] before = .ok tokens) ∧
      Fails (byteSize (spell before)) lexeme failure := by
  rw [tokenize_eq hs] at h
  obtain ⟨before, lexeme, after, hread, htokens, hfails⟩ := fails_of_ofLexemes h
  rw [List.nil_append, Nat.zero_add] at hfails
  exact ⟨before, lexeme, after, hread, htokens, hfails⟩

theorem splitter_of_ofGroup {before inside after : Text} {error : SyntaxError} {opener : Char}
    (hcause : error.cause = .unmatchedPair opener)
    (h : Expression.ofGroup (byteSize before) ('{' :: inside ++ ['}']) = .error (.refused error)) :
    Segment.splitWithin (Place.start (before ++ ('{' :: inside ++ ['}']) ++ after))
      ⟨byteSize before + 1, byteSize inside⟩ = .error (.refused error) := by
  have hslice : (Place.start (before ++ ('{' :: inside ++ ['}']) ++ after)).slice
      ⟨byteSize before + 1, byteSize inside⟩ = .ok inside := by
    refine Place.slice_eq_ok_iff.mpr ⟨before ++ ['{'], ['}'] ++ after, by simp [Place.start], ?_⟩
    rw [byteSize_append, Place.start, Nat.zero_add]
    rfl
  rw [Expression.ofGroup_braced] at h
  rw [Segment.splitWithin_of_slice hslice]
  exact Expression.splitter_of_ofBody hcause h

theorem splitter_of_parse {text : Text} {error : SyntaxError} {opener : Char}
    (hcause : error.cause = .unmatchedPair opener)
    (h : Expression.parse text = .error (.refused error)) :
    Segment.splitWithin (Place.start text)
      (if Expression.isBraced text then ⟨1, byteSize text - 2⟩ else ⟨0, byteSize text⟩) =
        .error (.refused error) := by
  have hs := Expression.byteSize_lt_of_refused h
  by_cases hb : Expression.isBraced text = true
  · have henclosed := Expression.isBraced_iff.mp hb
    obtain ⟨inside, rfl⟩ := henclosed.exists_inside (by decide)
    rw [Expression.parse_eq_ofGroup henclosed hs] at h
    have hsplit := @splitter_of_ofGroup [] inside [] error opener hcause h
    have hsize : byteSize ('{' :: inside ++ ['}']) - 2 = byteSize inside := by
      rw [byteSize_append, byteSize_cons, show '{'.utf8Size = 1 from rfl,
        show byteSize ['}'] = 1 from rfl]
      omega
    rw [if_pos hb, hsize]
    rwa [List.nil_append, List.append_nil] at hsplit
  · rw [Expression.parse_eq_ofBody (fun he => hb (Expression.isBraced_iff.mpr he)) hs] at h
    have hslice : (Place.start text).slice ⟨0, byteSize text⟩ = .ok text :=
      Place.slice_eq_ok_iff.mpr ⟨[], [], by simp [Place.start], rfl⟩
    rw [if_neg hb, Segment.splitWithin_of_slice hslice]
    exact Expression.splitter_of_ofBody hcause h

theorem splitter_of_tokenize {template : Text} {error : SyntaxError} {opener : Char}
    (hcause : error.cause = .unmatchedPair opener)
    (h : tokenize template = .error (.refused error)) :
    ∃ before inside after, Lexeme.read braceCloser? template =
        before ++ .group '{' ('{' :: inside ++ ['}']) :: after ∧
      Segment.splitWithin (Place.start template) ⟨byteSize (spell before) + 1, byteSize inside⟩ =
        .error (.refused error) := by
  obtain ⟨before, lexeme, after, hread, _, hfails⟩ :=
    fails_of_tokenize (byteSize_lt_of_refused h) h
  have hl := Lexeme.lexed_read bracketing_braceCloser? template
  have hspell := Lexeme.spell_read braceCloser? template
  rw [hread] at hl hspell
  cases hfails with
  | unclosed => cases hcause
  | @group opener' group _ hg =>
    obtain ⟨rfl, henclosed⟩ := hl.of_append.1.enclosed
    obtain ⟨inside, rfl⟩ := henclosed.exists_inside (by decide)
    refine ⟨before, inside, after, hread, ?_⟩
    have hsplit := @splitter_of_ofGroup (spell before) inside (spell after) error opener hcause hg
    rw [Lexeme.spell_append, Lexeme.spell_cons, ← List.append_assoc] at hspell
    rwa [← hspell]

/-- No item refuses: a segment always reads as an item, and an opener without its
closer is refused by the splitter. -/
theorem splitter_refuses :
    (∀ (source : Text) (window : Span) (segments : List Segment),
      Segment.splitWithin (Place.start source) window = .ok segments →
      ∀ segment ∈ segments, segment.span.slice source = .ok segment.text ∧
        ∃ item, Item.read segment = .ok item) ∧
    (∀ (text : Text) (error : SyntaxError) (opener : Char),
      Expression.parse text = .error (.refused error) → error.cause = .unmatchedPair opener →
      Segment.splitWithin (Place.start text)
        (if Expression.isBraced text then ⟨1, byteSize text - 2⟩ else ⟨0, byteSize text⟩) =
          .error (.refused error)) ∧
    (∀ (template : Text) (error : SyntaxError) (opener : Char),
      tokenize template = .error (.refused error) → error.cause = .unmatchedPair opener →
      ∃ before inside after, Lexeme.read braceCloser? template =
          before ++ .group '{' ('{' :: inside ++ ['}']) :: after ∧
        Segment.splitWithin (Place.start template)
          ⟨byteSize (spell before) + 1, byteSize inside⟩ = .error (.refused error)) := by
  refine ⟨?_, ?_, ?_⟩
  · intro source window segments h segment hs
    obtain ⟨body, _, hsegments⟩ := Segment.exists_slice_of_splitWithin h
    exact ⟨Segment.slice_of_splitWithin h segment hs, Item.ofSegment segment,
      Segment.read_of_ofLexemes hsegments segment hs⟩
  · intro text error opener h hcause
    exact splitter_of_parse hcause h
  · intro template error opener h hcause
    exact splitter_of_tokenize hcause h

theorem splitter_refuses_bracket :
    (Segment.splitWithin (Place.start "é\x7ba?, k: [b] if c\x7d".toList) ⟨3, 15⟩ =
        .ok [⟨"a?".toList, ⟨3, 2⟩⟩, ⟨"k: [b] if c".toList, ⟨7, 11⟩⟩] ∧
      ∃ item, Item.read ⟨"k: [b] if c".toList, ⟨7, 11⟩⟩ = .ok item) ∧
    (Expression.parse "\x7ba, [b\x7d".toList = .error (.refused ⟨.unmatchedPair '[', ⟨4, 1⟩⟩) ∧
      Segment.splitWithin (Place.start "\x7ba, [b\x7d".toList) ⟨1, 5⟩ =
        .error (.refused ⟨.unmatchedPair '[', ⟨4, 1⟩⟩)) ∧
    (tokenize "x\x7ba, [b\x7d".toList = .error (.refused ⟨.unmatchedPair '[', ⟨5, 1⟩⟩) ∧
      ∃ before inside after, Lexeme.read braceCloser? "x\x7ba, [b\x7d".toList =
          before ++ .group '{' ('{' :: inside ++ ['}']) :: after ∧
        Segment.splitWithin (Place.start "x\x7ba, [b\x7d".toList)
          ⟨byteSize (spell before) + 1, byteSize inside⟩ =
            .error (.refused ⟨.unmatchedPair '[', ⟨5, 1⟩⟩)) := by
  have hsplit : Segment.splitWithin (Place.start "é\x7ba?, k: [b] if c\x7d".toList) ⟨3, 15⟩ =
      .ok [⟨"a?".toList, ⟨3, 2⟩⟩, ⟨"k: [b] if c".toList, ⟨7, 11⟩⟩] := by
    decide +kernel
  have hparse : Expression.parse "\x7ba, [b\x7d".toList =
      .error (.refused ⟨.unmatchedPair '[', ⟨4, 1⟩⟩) := by
    decide +kernel
  have htokenize : tokenize "x\x7ba, [b\x7d".toList =
      .error (.refused ⟨.unmatchedPair '[', ⟨5, 1⟩⟩) := by
    decide +kernel
  have hbraced : Expression.isBraced "\x7ba, [b\x7d".toList = true := by decide +kernel
  have hwindow := splitter_refuses.2.1 _ _ _ hparse rfl
  rw [if_pos hbraced] at hwindow
  exact ⟨⟨hsplit, (splitter_refuses.1 _ _ _ hsplit _ (by simp)).2⟩, ⟨hparse, hwindow⟩,
    htokenize, splitter_refuses.2.2 _ _ _ htokenize rfl⟩

end Token

end Stencil
