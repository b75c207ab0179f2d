import Stencil.Proofs.Shift
import Stencil.Proofs.Token.Tiling

/-!
# Templates one after the other

A template that leaves no quoted run open keeps apart what follows it: the tokens
of the two together are those of the first and then those of the second, moved.
Only literal text on both sides of the border becomes one token. What refuses the
second template refuses the two together, where it then stands.
-/

set_option autoImplicit false

namespace Stencil

def leavesOpen (template : Text) : Bool :=
  (Lexeme.read braceCloser? template).getLast?.any Lexeme.isOpen

namespace Token

open Lexeme (spell Closed)

def meet : Token → List Token → List Token
  | text s span, text t next :: others =>
    text (s ++ t) ⟨span.start, span.length + next.length⟩ :: others
  | token, others => token :: others

def join : List Token → List Token → List Token
  | [], others => others
  | [token], others => token.meet others
  | token :: next :: tokens, others => token :: join (next :: tokens) others

theorem meet_of_not_isText (token : Token) {others : List Token}
    (h : ∀ next ∈ others.head?, next.isText = false) : token.meet others = token :: others := by
  cases token with
  | expression => cases others <;> rfl
  | text s span =>
    cases others with
    | nil => rfl
    | cons next others =>
      cases next with
      | expression => rfl
      | text t next => cases h _ rfl

theorem join_expression (tokens others more : List Token) (e : Expression) :
    join (tokens ++ expression e :: others) more = tokens ++ expression e :: join others more := by
  induction tokens with
  | nil => cases others <;> rfl
  | cons token tokens ih =>
    cases tokens with
    | nil => exact congrArg (token :: ·) ih
    | cons next tokens => exact congrArg (token :: ·) ih

theorem join_literal (offset : Nat) (s t : Text) {others : List Token}
    (h : ∀ next ∈ others.head?, next.isText = false) :
    join (literal offset s) (literal (offset + byteSize s) t ++ others) =
      literal offset (s ++ t) ++ others := by
  by_cases hs : s = []
  · subst hs
    rfl
  have hst : s ++ t ≠ [] := by simp [hs]
  rw [literal_of_ne_nil hs, literal_of_ne_nil hst, join]
  by_cases ht : t = []
  · subst ht
    rw [literal_nil, List.nil_append, List.append_nil]
    exact meet_of_not_isText _ h
  · rw [literal_of_ne_nil ht, byteSize_append]
    rfl

theorem ofLexemes_run (offset : Nat) (run next lexemes : List Lexeme) :
    ofLexemes offset (run ++ next) lexemes =
      (ofLexemes (offset + byteSize (spell run)) next lexemes).map
        (join (literal offset (spell run))) := by
  -- `next` grows with every literal lexeme, while what `run` adds stays the same on the left.
  induction lexemes generalizing next with
  | nil =>
    have hjoin := @join_literal offset (spell run) (spell next) [] (by simp)
    rw [List.append_nil, List.append_nil, ← Lexeme.spell_append] at hjoin
    exact congrArg Except.ok hjoin.symm
  | cons lexeme rest ih =>
    cases lexeme with
    | quoted t =>
      have ih := ih (next ++ [.quoted t])
      rwa [← List.append_assoc] at ih
    | single c =>
      have ih := ih (next ++ [.single c])
      rwa [← List.append_assoc] at ih
    | unclosed opener t =>
      rw [ofLexemes, ofLexemes, Lexeme.spell_append, byteSize_append, Nat.add_assoc]
      rfl
    | group opener group =>
      rw [ofLexemes, ofLexemes, Lexeme.spell_append, byteSize_append, ← Nat.add_assoc]
      cases Expression.ofGroup (offset + byteSize (spell run) + byteSize (spell next)) group with
      | error failure => rfl
      | ok e =>
        simp only [bind, Except.bind]
        split
        next => rfl
        next others _ =>
          have hjoin := @join_literal offset (spell run) (spell next) (expression e :: others)
            (by simp [isText])
          exact congrArg Except.ok hjoin.symm

/-- Lexemes are read on from where those before them end, if these have tokens. -/
theorem ofLexemes_append_eq_bind (offset : Nat) (run lexemes rest : List Lexeme) :
    ofLexemes offset run (lexemes ++ rest) =
      (ofLexemes offset run lexemes).bind fun tokens =>
        (ofLexemes (offset + byteSize (spell (run ++ lexemes))) [] rest).map (join tokens) := by
  -- At the border the run of literal text may still be open: there the lemma above applies.
  induction lexemes generalizing offset run with
  | nil =>
    have hrun := ofLexemes_run offset run [] rest
    rw [List.append_nil] at hrun
    rw [List.nil_append, hrun, List.append_nil]
    rfl
  | cons lexeme lexemes ih =>
    cases lexeme with
    | quoted t =>
      have ih := ih offset (run ++ [.quoted t])
      rwa [List.append_assoc, List.singleton_append] at ih
    | single c =>
      have ih := ih offset (run ++ [.single c])
      rwa [List.append_assoc, List.singleton_append] at ih
    | unclosed => rfl
    | group opener group =>
      have ih := ih (offset + byteSize (spell run) + byteSize group) []
      rw [List.nil_append] at ih
      rw [List.cons_append, ofLexemes, ofLexemes, Lexeme.spell_append, Lexeme.spell_cons,
        byteSize_append, byteSize_append, Lexeme.text, ← Nat.add_assoc, ← Nat.add_assoc, ih]
      cases Expression.ofGroup (offset + byteSize (spell run)) group with
      | error failure => rfl
      | ok e =>
        cases ofLexemes (offset + byteSize (spell run) + byteSize group) [] lexemes with
        | error failure => rfl
        | ok others =>
          simp only [bind, Except.bind, pure, Except.pure]
          cases ofLexemes _ [] rest with
          | error failure => rfl
          | ok more => exact congrArg Except.ok (join_expression _ others more e).symm

theorem isUnclosed_of_ofLexemes {offset : Nat} {run lexemes : List Lexeme} {tokens : List Token}
    (h : ofLexemes offset run lexemes = .ok tokens) :
    ∀ lexeme ∈ lexemes, lexeme.isUnclosed = false := by
  induction lexemes generalizing offset run tokens with
  | nil => simp
  | cons lexeme rest ih =>
    cases lexeme with
    | quoted => exact List.forall_mem_cons.mpr ⟨rfl, ih h⟩
    | single => exact List.forall_mem_cons.mpr ⟨rfl, ih h⟩
    | unclosed => cases h
    | group opener group =>
      obtain ⟨_, _, _, hrest, _⟩ := ofLexemes_group_eq_ok.mp h
      exact List.forall_mem_cons.mpr ⟨rfl, ih hrest⟩

theorem closed_of_tokenize {template : Text} {tokens : List Token}
    (h : tokenize template = .ok tokens) (ho : leavesOpen template = false) :
    ∀ lexeme ∈ Lexeme.read braceCloser? template, Closed braceCloser? lexeme := by
  rw [tokenize_eq (byteSize_lt_of_tokenize h)] at h
  exact Lexeme.closed_read bracketing_braceCloser? (isUnclosed_of_ofLexemes h) ho

/-- The tokens of two templates together, from those of each. -/
theorem tokenize_append_eq_map {s t : Text} {tokens : List Token} (h : tokenize s = .ok tokens)
    (ho : leavesOpen s = false) (hs : byteSize (s ++ t) < offsetLimit) :
    tokenize (s ++ t) =
      (Outcome.shift (fun amount => List.map (shift amount)) (byteSize s) (tokenize t)).map
        (join tokens) := by
  have hclosed := closed_of_tokenize h ho
  have hshift := ofLexemes_shift 0 (byteSize s) [] (Lexeme.read braceCloser? t)
  have ht : byteSize t < offsetLimit := by
    rw [byteSize_append] at hs
    omega
  rw [tokenize_eq (byteSize_lt_of_tokenize h)] at h
  rw [tokenize_eq hs, tokenize_eq ht, Lexeme.read_append bracketing_braceCloser? hclosed,
    ofLexemes_append_eq_bind, h, ← hshift, List.nil_append, Lexeme.spell_read]
  rfl

/-- A template after one that leaves no quoted run open has tokens if it has tokens by itself,
the same ones moved, and fails as it does by itself, with the failure moved. -/
theorem tokenize_append {s t : Text} {tokens : List Token} (h : tokenize s = .ok tokens)
    (ho : leavesOpen s = false) (hs : byteSize (s ++ t) < offsetLimit) :
    ((∃ others, tokenize (s ++ t) = .ok others) ↔ ∃ others, tokenize t = .ok others) ∧
    (∀ others, tokenize t = .ok others →
      tokenize (s ++ t) = .ok (join tokens (others.map (shift (byteSize s))))) ∧
    (∀ failure, tokenize t = .error failure →
      tokenize (s ++ t) = .error (failure.shift (byteSize s))) := by
  rw [tokenize_append_eq_map h ho hs]
  cases tokenize t with
  | ok others =>
    refine ⟨⟨fun _ => ⟨others, rfl⟩, fun _ => ⟨_, rfl⟩⟩, ?_, by simp⟩
    intro _ heq
    obtain rfl := Except.ok.inj heq
    rfl
  | error failure =>
    refine ⟨by simp [Outcome.shift, Except.map], by simp, ?_⟩
    intro _ heq
    obtain rfl := Except.error.inj heq
    rfl

theorem tokenize_append_border :
    tokenize "é\x7ba\x7db".toList = .ok
      [text "é".toList ⟨0, 2⟩,
        expression ⟨[⟨['a'], none, none, ⟨3, 1⟩⟩], ⟨2, 3⟩, "\x7ba\x7d".toList⟩,
        text ['b'] ⟨5, 1⟩] ∧
    leavesOpen "é\x7ba\x7db".toList = false ∧
    tokenize ("é\x7ba\x7db".toList ++ "'\x7b'\x7bc?\x7d".toList) = .ok
      [text "é".toList ⟨0, 2⟩,
        expression ⟨[⟨['a'], none, none, ⟨3, 1⟩⟩], ⟨2, 3⟩, "\x7ba\x7d".toList⟩,
        text "b'\x7b'".toList ⟨5, 4⟩,
        expression ⟨[⟨['c'], none, some existence, ⟨10, 2⟩⟩], ⟨9, 4⟩, "\x7bc?\x7d".toList⟩] ∧
    tokenize ("é\x7ba\x7db".toList ++ "c\x7b[\x7d".toList) =
      .error (.refused ⟨.unmatchedPair '[', ⟨8, 1⟩⟩) := by
  have h : tokenize "é\x7ba\x7db".toList = .ok
      [text "é".toList ⟨0, 2⟩,
        expression ⟨[⟨['a'], none, none, ⟨3, 1⟩⟩], ⟨2, 3⟩, "\x7ba\x7d".toList⟩,
        text ['b'] ⟨5, 1⟩] := by
    decide +kernel
  have ho : leavesOpen "é\x7ba\x7db".toList = false := by decide +kernel
  have hok : tokenize "'\x7b'\x7bc?\x7d".toList = .ok
      [text "'\x7b'".toList ⟨0, 3⟩,
        expression ⟨[⟨['c'], none, some existence, ⟨4, 2⟩⟩], ⟨3, 4⟩, "\x7bc?\x7d".toList⟩] := by
    decide +kernel
  have herror : tokenize "c\x7b[\x7d".toList =
      .error (.refused ⟨.unmatchedPair '[', ⟨2, 1⟩⟩) := by
    decide +kernel
  exact ⟨h, ho, (tokenize_append h ho (by decide)).2.1 _ hok,
    (tokenize_append h ho (by decide)).2.2 _ herror⟩

end Token

end Stencil
