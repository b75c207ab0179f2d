import Stencil.Proofs.Expression

/-!
# What an expression is refused for

A body is refused for the first opener that has no closer after it in the body, or
else for a mix of items. In a brace group that opener is no brace: the group counts
its braces wherever they stand, so what opens inside it is closed before its end.
-/

set_option autoImplicit false

namespace Stencil

namespace Lexeme

theorem exists_of_unclosed? {position place : Nat} {lexemes : List Lexeme} {opener : Char}
    (h : unclosed? position lexemes = some (opener, place)) :
    ∃ before text after, lexemes = before ++ .unclosed opener text :: after ∧
      place = position + byteSize (spell before) := by
  induction lexemes generalizing position with
  | nil => cases h
  | cons lexeme rest ih =>
    by_cases hu : lexeme.isUnclosed = true
    · cases lexeme with
      | unclosed opener' text =>
        obtain ⟨rfl, rfl⟩ : opener' = opener ∧ position = place := by simpa [unclosed?] using h
        exact ⟨[], text, rest, rfl, rfl⟩
      | _ => simp [isUnclosed] at hu
    · rw [unclosed?_cons (by simpa using hu)] at h
      obtain ⟨before, text, after, rfl, rfl⟩ := ih h
      refine ⟨lexeme :: before, text, after, rfl, ?_⟩
      rw [spell_cons, byteSize_append, size, Nat.add_assoc]

theorem Lexed.unclosed {brackets : Char → Option Char} {opener : Char} {text : Text}
    {rest : List Lexeme} (h : Lexed brackets (.unclosed opener text :: rest)) :
    rest = [] ∧ ∃ closer inside, text = opener :: inside ∧ brackets opener = some closer ∧
      splitGroup? opener closer 0 inside = none := by
  cases h with
  | last ht =>
    cases ht with
    | @unclosed _ closer inside hb h => exact ⟨rfl, closer, inside, rfl, hb, h⟩
  | cons hc _ => cases hc

end Lexeme

theorem Segment.exists_opener_of_ofLexemes {offset : Nat} {body : Text} {failure : Failure}
    (h : ofLexemes offset (Lexeme.read closer? body) = .error failure) :
    ∃ before opener closer inside, body = before ++ opener :: inside ∧
      closer? opener = some closer ∧ splitGroup? opener closer 0 inside = none ∧
      failure = .refused ⟨.unmatchedPair opener, .ofChar opener (offset + byteSize before)⟩ := by
  rw [ofLexemes, Lexeme.unlessUnclosed] at h
  split at h
  next opener place hu =>
    obtain ⟨before, text, after, hread, rfl⟩ := Lexeme.exists_of_unclosed? hu
    have hl := Lexeme.lexed_read bracketing_closer? body
    have hspell := Lexeme.spell_read closer? body
    rw [hread] at hl hspell
    obtain ⟨rfl, closer, inside, rfl, hb, hnone⟩ := hl.of_append.1.unclosed
    refine ⟨Lexeme.spell before, opener, closer, inside, ?_, hb, hnone, ?_⟩
    · rw [← hspell]
      simp [Lexeme.text]
    · exact (Except.error.inj h).symm
  next => cases h

namespace Expression

theorem byteSize_lt_of_refused {text : Text} {error : SyntaxError}
    (h : parse text = .error (.refused error)) : byteSize text < offsetLimit := by
  rw [parse, Span.ofText] at h
  by_cases hs : byteSize text < offsetLimit
  · exact hs
  · rw [if_neg hs] at h
    cases h

theorem ofBody_eq_error {offset : Nat} {body source : Text} {span : Span} {failure : Failure}
    (h : ofBody offset body source span = .error failure) :
    Segment.ofLexemes offset (Lexeme.read closer? body) = .error failure ∨
      failure = .refused ⟨.mixedItems source, span⟩ := by
  rw [ofBody] at h
  cases hs : Segment.ofLexemes offset (Lexeme.read closer? body) with
  | error failure' =>
    rw [hs] at h
    obtain rfl : failure' = failure := Except.error.inj h
    exact .inl rfl
  | ok segments =>
    simp only [hs, bind, Except.bind] at h
    split at h
    · exact .inr (Except.error.inj h).symm
    · cases h

/-- A mix of items apart, what refuses a body is what the splitter refuses it for. -/
theorem splitter_of_ofBody {offset : Nat} {body source : Text} {span : Span} {error : SyntaxError}
    {opener : Char} (hcause : error.cause = .unmatchedPair opener)
    (h : ofBody offset body source span = .error (.refused error)) :
    Segment.ofLexemes offset (Lexeme.read closer? body) = .error (.refused error) := by
  rcases ofBody_eq_error h with hsplit | hmixed
  · exact hsplit
  · rw [Failure.refused.inj hmixed] at hcause
    cases hcause

inductive Refuses (position : Nat) (group : Text) : SyntaxError → Prop
  | opener {before rest : Text} {opener closer : Char}
      (hg : group = '{' :: (before ++ opener :: rest) ++ ['}'])
      (hc : closer? opener = some closer) (hn : splitGroup? opener closer 0 rest = none) :
      Refuses position group
        ⟨.unmatchedPair opener, .ofChar opener (position + 1 + byteSize before)⟩
  | items : Refuses position group ⟨.mixedItems group, ⟨position, byteSize group⟩⟩

theorem refuses_of_ofGroup {position : Nat} {group : Text} {failure : Failure}
    (h : Enclosed '{' '}' group) (hf : ofGroup position group = .error failure) :
    ∃ error, failure = .refused error ∧ Refuses position group error := by
  obtain ⟨inside, rfl⟩ := h.exists_inside (by decide)
  rw [ofGroup_braced] at hf
  rcases ofBody_eq_error hf with hsplit | rfl
  · obtain ⟨before, opener, closer, rest, rfl, hc, hn, rfl⟩ :=
      Segment.exists_opener_of_ofLexemes hsplit
    exact ⟨_, rfl, .opener rfl hc hn⟩
  · exact ⟨_, rfl, .items⟩

namespace Refuses

variable {position : Nat} {group : Text} {error : SyntaxError}

theorem cause_ne (h : Refuses position group error) : error.cause ≠ .unmatchedBrace := by
  cases h <;> simp

theorem within (h : Refuses position group error) (henclosed : Enclosed '{' '}' group) :
    position ≤ error.span.start ∧ error.span.start < error.span.stop ∧
      error.span.stop ≤ position + byteSize group := by
  have hbrace : '{'.utf8Size = 1 := rfl
  cases h with
  | @opener before rest opener closer hg =>
    have hpos := opener.utf8Size_pos
    simp only [hg, Span.ofChar, Span.stop, byteSize_append, byteSize_cons, List.cons_append, hbrace]
    omega
  | items =>
    obtain ⟨inside, rfl⟩ := henclosed.exists_inside (by decide)
    simp only [Span.stop, byteSize_append, byteSize_cons, List.cons_append, hbrace]
    omega

/-- Every brace that opens inside a group is closed inside it, so a brace refuses nothing. -/
theorem bracket (h : Refuses position group error) (henclosed : Enclosed '{' '}' group)
    {opener : Char} (hcause : error.cause = .unmatchedPair opener) :
    opener = '[' ∨ opener = '(' := by
  cases h with
  | @opener before rest opener' closer hg hc hn =>
    obtain rfl : opener' = opener := by simpa using hcause
    rcases closer?_cases hc with ⟨rfl, rfl⟩ | ⟨rfl, _⟩ | ⟨rfl, _⟩
    · rw [hg] at henclosed
      exact absurd hn (henclosed.splitGroup?_inside (by decide))
    · exact .inl rfl
    · exact .inr rfl
  | items => cases hcause

end Refuses

theorem bracket_of_ofGroup {position : Nat} {group : Text} {error : SyntaxError} {opener : Char}
    (henclosed : Enclosed '{' '}' group)
    (h : ofGroup position group = .error (.refused error))
    (hcause : error.cause = .unmatchedPair opener) : opener = '[' ∨ opener = '(' := by
  obtain ⟨error', heq, hrefuses⟩ := refuses_of_ofGroup henclosed h
  obtain rfl := Failure.refused.inj heq
  exact hrefuses.bracket henclosed hcause

end Expression

end Stencil
