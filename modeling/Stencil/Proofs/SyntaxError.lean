import Stencil.Proofs.Expression.Homogeneous
import Stencil.Proofs.Group.Uneven
import Stencil.Proofs.Token.Failure

/-!
# What a syntax error points at

The span of a syntax error lies in the text that is refused, and under it stands what
the cause names: a brace, an opener, or the expression with the mix of items. An opener
is refused for what follows it in its body, where closers of its kind never come to be
as many as openers.
-/

set_option autoImplicit false

namespace Stencil

def Cause.named : Cause → Text
  | unmatchedBrace => ['{']
  | unmatchedPair opener => [opener]
  | mixedItems expression => expression

namespace SyntaxError

structure Points (error : SyntaxError) (text : Text) : Prop where
  filled : error.span.isEmpty = false
  stop_le : error.span.stop ≤ byteSize text
  start_boundary : Boundary text error.span.start
  stop_boundary : Boundary text error.span.stop
  slice : error.span.slice text = .ok error.cause.named

/-- The opener at an offset is never balanced before the end of a body: no beginning of what stands
there has as many closers as openers of its kind. -/
def Unbalanced (text : Text) (body : Span) (offset : Nat) (opener : Char) : Prop :=
  ∃ closer rest, closer? opener = some closer ∧ body.start ≤ offset ∧
    Span.slice ⟨offset, body.stop - offset⟩ text = .ok (opener :: rest) ∧
    ∀ s, s <+: opener :: rest → s ≠ [] → s.count closer ≠ s.count opener

theorem points_of_parts {error : SyntaxError} {text before after : Text}
    (ht : text = before ++ error.cause.named ++ after) (hne : error.cause.named ≠ [])
    (hspan : error.span = ⟨byteSize before, byteSize error.cause.named⟩) :
    error.Points text := by
  have hsize : byteSize error.cause.named ≠ 0 := by
    rwa [ne_eq, byteSize_eq_zero]
  refine ⟨?_, ?_, ?_, ?_, ?_⟩
  · simpa [hspan, Span.isEmpty] using hsize
  · rw [hspan, ht, byteSize_append, byteSize_append]
    exact Nat.le_add_right _ _
  · exact ⟨before, error.cause.named ++ after, by rw [ht, List.append_assoc], by rw [hspan]⟩
  · exact ⟨before ++ error.cause.named, after, ht, by rw [hspan, byteSize_append, Span.stop]⟩
  · exact Span.slice_eq_ok_iff.mpr ⟨before, after, ht, hspan⟩

theorem unbalanced_of_splitGroup? {opener closer : Char} (hc : closer? opener = some closer)
    {inside : Text} (hn : splitGroup? opener closer 0 inside = none) (u before v : Text) :
    Unbalanced (u ++ (before ++ opener :: inside) ++ v)
      ⟨byteSize u, byteSize (before ++ opener :: inside)⟩ (byteSize u + byteSize before)
      opener := by
  refine ⟨closer, inside, hc, Nat.le_add_right _ _, ?_, ?_⟩
  · apply Span.slice_eq_ok_iff.mpr
    refine ⟨u ++ before, v, by simp, ?_⟩
    rw [byteSize_append, byteSize_append, Span.mk.injEq]
    refine ⟨rfl, ?_⟩
    show byteSize u + (byteSize before + _) - (byteSize u + byteSize before) = _
    omega
  · exact (splitGroup?_eq_none_iff_uneven (bracketing_closer?.ne hc)).mp hn

/-- A body that the splitter refuses is refused for an opener in it that is never balanced. -/
theorem points_of_splitter {u body v : Text} {failure : Failure}
    (h : Segment.ofLexemes (byteSize u) (Lexeme.read closer? body) = .error failure) :
    ∃ error opener, failure = .refused error ∧ error.cause = .unmatchedPair opener ∧
      error.Points (u ++ body ++ v) ∧
      Unbalanced (u ++ body ++ v) ⟨byteSize u, byteSize body⟩ error.span.start opener := by
  obtain ⟨before, opener, closer, inside, rfl, hc, hn, rfl⟩ :=
    Segment.exists_opener_of_ofLexemes h
  refine ⟨_, opener, rfl, rfl, ?_, unbalanced_of_splitGroup? hc hn u before v⟩
  apply @points_of_parts _ _ (u ++ before) (inside ++ v)
  · simp [Cause.named]
  · simp [Cause.named]
  · simp [Cause.named, Span.ofChar]

theorem points_of_ofBody {u body v source : Text} {span : Span} {failure : Failure}
    (hspan : span.slice (u ++ body ++ v) = .ok source) (hne : source ≠ [])
    (h : Expression.ofBody (byteSize u) body source span = .error failure) :
    ∃ error, failure = .refused error ∧ error.Points (u ++ body ++ v) ∧
      ∀ opener, error.cause = .unmatchedPair opener →
        Unbalanced (u ++ body ++ v) ⟨byteSize u, byteSize body⟩ error.span.start opener := by
  rcases Expression.ofBody_eq_error h with hsplit | rfl
  · obtain ⟨error, opener, rfl, hcause, hpoints, hunbalanced⟩ := points_of_splitter hsplit
    refine ⟨error, rfl, hpoints, fun opener' hcause' => ?_⟩
    rw [hcause] at hcause'
    rwa [← Cause.unmatchedPair.inj hcause']
  · obtain ⟨before, after, ht, rfl⟩ := Span.slice_eq_ok_iff.mp hspan
    refine ⟨_, rfl, ?_, fun _ hcause => by cases hcause⟩
    exact @points_of_parts ⟨.mixedItems source, _⟩ _ before after ht hne rfl

theorem points_of_split {text : Text} {failure : Failure} (hs : byteSize text < offsetLimit)
    (h : Segment.split text = .error failure) :
    ∃ error opener, failure = .refused error ∧ error.cause = .unmatchedPair opener ∧
      error.Points text ∧ Unbalanced text ⟨0, byteSize text⟩ error.span.start opener := by
  rw [Segment.split_eq_ofLexemes hs] at h
  have hpoints := @points_of_splitter [] text [] failure h
  rwa [List.nil_append, List.append_nil] at hpoints

theorem points_of_parse {text : Text} {failure : Failure} (hs : byteSize text < offsetLimit)
    (h : Expression.parse text = .error failure) :
    ∃ error, failure = .refused error ∧ error.Points text ∧
      ∀ opener, error.cause = .unmatchedPair opener → ∃ body, Expression.window text = .ok body ∧
        Unbalanced text body error.span.start opener := by
  obtain ⟨body, bodySpan, hwindow, hslice, hparse⟩ := Expression.exists_window hs
  have hne : text ≠ [] := by
    rintro rfl
    have hempty : Expression.parse [] = .ok ⟨[], ⟨0, 0⟩, []⟩ := by decide +kernel
    rw [hempty] at h
    cases h
  obtain ⟨u, v, rfl, rfl⟩ := Span.slice_eq_ok_iff.mp hslice
  rw [hparse] at h
  obtain ⟨error, hrefused, hpoints, hunbalanced⟩ := points_of_ofBody (Place.slice_whole _) hne h
  exact ⟨error, hrefused, hpoints, fun opener hcause => ⟨_, hwindow, hunbalanced opener hcause⟩⟩

theorem points_of_tokenize {template : Text} {failure : Failure}
    (hs : byteSize template < offsetLimit) (h : tokenize template = .error failure) :
    ∃ error, failure = .refused error ∧ error.Points template ∧
      ∀ opener, error.cause = .unmatchedPair opener → ∃ before inside after,
        Lexeme.read braceCloser? template =
          before ++ .group '{' ('{' :: inside ++ ['}']) :: after ∧
        Unbalanced template ⟨byteSize (Lexeme.spell before) + 1, byteSize inside⟩
          error.span.start opener := by
  obtain ⟨before, lexeme, after, hread, _, hfails⟩ := Token.fails_of_tokenize hs h
  have hl := Lexeme.lexed_read bracketing_braceCloser? template
  have hspell := Lexeme.spell_read braceCloser? template
  rw [hread] at hl hspell
  rcases hfails.cases_brace hl.of_append.1 with ⟨text, rfl, rfl⟩ | ⟨group, rfl, henclosed, hg⟩
  · obtain ⟨_, _, inside, rfl, _⟩ := hl.of_append.1.unclosed
    refine ⟨_, rfl, ?_, fun _ hcause => by cases hcause⟩
    apply @points_of_parts _ _ (Lexeme.spell before) (inside ++ Lexeme.spell after)
    · rw [← hspell]
      simp [Cause.named, Lexeme.text]
    · simp [Cause.named]
    · rfl
  · obtain ⟨inside, rfl⟩ := henclosed.exists_inside (by decide)
    -- The body of the group stands in the template after the brace that opens it.
    have htemplate : template =
        (Lexeme.spell before ++ ['{']) ++ inside ++ (['}'] ++ Lexeme.spell after) := by
      rw [← hspell]
      simp [Lexeme.text]
    have hslice : Span.slice ⟨byteSize (Lexeme.spell before), byteSize ('{' :: inside ++ ['}'])⟩
        template = .ok ('{' :: inside ++ ['}']) := by
      apply Span.slice_eq_ok_iff.mpr
      refine ⟨Lexeme.spell before, Lexeme.spell after, ?_, rfl⟩
      rw [htemplate]
      simp
    have hposition :
        byteSize (Lexeme.spell before) + 1 = byteSize (Lexeme.spell before ++ ['{']) := by
      rw [byteSize_append]
      rfl
    rw [Expression.ofGroup_braced, hposition] at hg
    rw [htemplate] at hslice
    obtain ⟨error, hrefused, hpoints, hunbalanced⟩ := points_of_ofBody hslice (by simp) hg
    rw [← htemplate, ← hposition] at hunbalanced
    rw [← htemplate] at hpoints
    exact ⟨error, hrefused, hpoints, fun opener hcause =>
      ⟨before, inside, after, hread, hunbalanced opener hcause⟩⟩

theorem points_of_refused {template : Text} {error : SyntaxError}
    (h : tokenize template = .error (.refused error)) : error.Points template ∧
      ∀ opener, error.cause = .unmatchedPair opener →
        ∃ body, Unbalanced template body error.span.start opener := by
  obtain ⟨_, hrefused, hpoints, hunbalanced⟩ :=
    points_of_tokenize (Token.byteSize_lt_of_refused h) h
  obtain rfl := Failure.refused.inj hrefused
  refine ⟨hpoints, fun opener hcause => ?_⟩
  obtain ⟨_, _, _, _, hbody⟩ := hunbalanced opener hcause
  exact ⟨_, hbody⟩

/-- A text that is refused, by the splitter, as an expression or as a template, is refused for what
stands under the span of the error. -/
theorem points_at_culprit :
    (∀ (text : Text) (failure : Failure), byteSize text < offsetLimit →
      Segment.split text = .error failure →
      ∃ error opener, failure = .refused error ∧ error.cause = .unmatchedPair opener ∧
        error.Points text ∧ Unbalanced text ⟨0, byteSize text⟩ error.span.start opener) ∧
    (∀ (text : Text) (failure : Failure), byteSize text < offsetLimit →
      Expression.parse text = .error failure →
      ∃ error, failure = .refused error ∧ error.Points text ∧
        ∀ opener, error.cause = .unmatchedPair opener →
          ∃ body, Expression.window text = .ok body ∧
            Unbalanced text body error.span.start opener) ∧
    (∀ (template : Text) (failure : Failure), byteSize template < offsetLimit →
      tokenize template = .error failure →
      ∃ error, failure = .refused error ∧ error.Points template ∧
        ∀ opener, error.cause = .unmatchedPair opener → ∃ before inside after,
          Lexeme.read braceCloser? template =
            before ++ .group '{' ('{' :: inside ++ ['}']) :: after ∧
          Unbalanced template ⟨byteSize (Lexeme.spell before) + 1, byteSize inside⟩
            error.span.start opener) :=
  ⟨fun _ _ hs h => points_of_split hs h, fun _ _ hs h => points_of_parse hs h,
    fun _ _ hs h => points_of_tokenize hs h⟩

theorem points_at_culprit_multibyte :
    (Segment.split "é, ((x)".toList = .error (.refused ⟨.unmatchedPair '(', ⟨4, 1⟩⟩) ∧
      Points ⟨.unmatchedPair '(', ⟨4, 1⟩⟩ "é, ((x)".toList ∧
      Unbalanced "é, ((x)".toList ⟨0, 8⟩ 4 '(') ∧
    (Expression.parse "\x7bé: a, b\x7d".toList =
        .error (.refused ⟨.mixedItems "\x7bé: a, b\x7d".toList, ⟨0, 10⟩⟩) ∧
      Points ⟨.mixedItems "\x7bé: a, b\x7d".toList, ⟨0, 10⟩⟩ "\x7bé: a, b\x7d".toList) ∧
    (tokenize "é'\x7b'\x7ba\x7d\x7bk: b, (c\x7d)\x7b".toList =
        .error (.refused ⟨.unmatchedPair '(', ⟨15, 1⟩⟩) ∧
      Points ⟨.unmatchedPair '(', ⟨15, 1⟩⟩ "é'\x7b'\x7ba\x7d\x7bk: b, (c\x7d)\x7b".toList ∧
      ∃ body, Unbalanced "é'\x7b'\x7ba\x7d\x7bk: b, (c\x7d)\x7b".toList body 15 '(') := by
  have hsplit : Segment.split "é, ((x)".toList =
      .error (.refused ⟨.unmatchedPair '(', ⟨4, 1⟩⟩) := by
    decide +kernel
  have hparse : Expression.parse "\x7bé: a, b\x7d".toList =
      .error (.refused ⟨.mixedItems "\x7bé: a, b\x7d".toList, ⟨0, 10⟩⟩) := by
    decide +kernel
  have htokenize : tokenize "é'\x7b'\x7ba\x7d\x7bk: b, (c\x7d)\x7b".toList =
      .error (.refused ⟨.unmatchedPair '(', ⟨15, 1⟩⟩) := by
    decide +kernel
  obtain ⟨_, _, hs, hcs, hps, hus⟩ := points_at_culprit.1 _ _ (by decide) hsplit
  obtain ⟨_, hp, hpp, _⟩ := points_at_culprit.2.1 _ _ (by decide) hparse
  obtain ⟨_, ht, hpt, hut⟩ := points_at_culprit.2.2 _ _ (by decide) htokenize
  obtain rfl := Failure.refused.inj hs
  obtain rfl := Cause.unmatchedPair.inj hcs
  obtain rfl := Failure.refused.inj hp
  obtain rfl := Failure.refused.inj ht
  obtain ⟨_, _, _, _, hunbalanced⟩ := hut '(' rfl
  exact ⟨⟨hsplit, hps, hus⟩, ⟨hparse, hpp⟩, htokenize, hpt, _, hunbalanced⟩

end SyntaxError

end Stencil
