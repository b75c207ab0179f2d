import Stencil.Proofs.Expression.Refusal
import Stencil.Proofs.Token.Refusal
import Stencil.Proofs.Word.Item

/-!
# Templates in words

The reader of a template, and that of one expression, as they run on a cursor that
counts in words: every slice, every span, every sum and every difference is checked.
On a text whose size is a word none of these checks fails, and what is read is what
is read in numbers.
-/

set_option autoImplicit false

namespace Stencil.Word

open Cursor (ofParts)
open Lexeme (spell)

def shrink (span : Span) (amount : Nat) : Except Fault Span := do
  if 2 * amount ≤ span.length then
    let start ← add span.start amount
    let stop ← sub span.stop amount
    Span.between start stop
  else throw (.overdrawn span.start span.stop amount)

def readWithin (source : Text) (span body : Span) : Outcome Expression := do
  let segments ← splitWithin source body
  let items ← segments.mapM (readItem source)
  let text ← check (span.slice source)
  if isMixed items then refuse (.mixedItems text) span
  else return ⟨items, span, text⟩

def bracedBody (text : Text) : Except Fault (Option Span) := do
  let whole ← Span.ofText text
  let (skipped, next) ← skipToPair (← within text whole) '{' '}' true
  if skipped && next.isAtEnd then return some (← shrink whole 1)
  return none

def parse (text : Text) : Outcome Expression := do
  let whole ← check (Span.ofText text)
  let body ← check (bracedBody text)
  readWithin text whole (body.getD whole)

def pushText (cursor : Cursor) (tokens : List Token) : Except Fault (List Token) := do
  let text ← cursor.current
  if text.isEmpty then return tokens
  return tokens ++ [.text text (← cursor.span)]

def tokenTurn (source : Text) (cursor : Cursor) (tokens : List Token) :
    Outcome (Turn (List Token) (List Token)) := do
  match ← check cursor.peek with
  | none => return .done (← check (pushText cursor tokens))
  | some c =>
    if c = '{' then
      let tokens ← check (pushText cursor tokens)
      let (skipped, next) ← check (skipToPair cursor.resetStart '{' '}' true)
      if skipped then
        let span ← check next.span
        let body ← check (shrink span 1)
        let e ← readWithin source span body
        return .next next.resetStart (tokens ++ [.expression e])
      let stop ← check (add cursor.position 1)
      let span ← check (Span.between cursor.position stop)
      refuse .unmatchedBrace span
    return .next (← check (pass cursor)) tokens

def tokenize (template : Text) : Outcome (List Token) := do
  let whole ← check (Span.ofText template)
  loop (tokenTurn template) (← check (within template whole)) []

theorem shrink_eq {span : Span} (h : span.stop < offsetLimit) (amount : Nat) :
    shrink span amount = span.shrink amount := by
  obtain ⟨start, length⟩ := span
  simp only [shrink, Span.shrink, Span.stop] at h ⊢
  by_cases hl : 2 * amount ≤ length
  · rw [if_pos hl, if_pos hl, add_of_lt (by omega), ok_bind, sub_of_le (by omega), ok_bind,
      show start + length - amount = start + amount + (length - 2 * amount) by omega,
      Span.between_add]
  · rw [if_neg hl, if_neg hl]
    rfl

section

variable {before part ahead after : Text}

theorem readItem_of_ofLexemes {body : Text} {segments : List Segment}
    (h : byteSize (before ++ body ++ after) < offsetLimit)
    (hs : Segment.ofLexemes (byteSize before) (Lexeme.read closer? body) = .ok segments) :
    ∀ segment ∈ segments,
      readItem (before ++ body ++ after) segment = .ok (Item.ofSegment segment) := by
  intro segment hm
  have hjoin := Segment.joinable_of_ofLexemes (Lexeme.lexed_read bracketing_closer? body) hs
  have hentry := hjoin.entry segment.text (List.mem_map_of_mem hm)
  obtain ⟨_, rfl⟩ := Segment.ofLexemes_eq_ok hs
  obtain ⟨first, last, hbody, hspan⟩ := Segment.exists_of_ofPieces hm
  rw [Segment.spell_pieces, Lexeme.spell_read] at hbody
  have hsource : before ++ body ++ after = before ++ first ++ segment.text ++ (last ++ after) := by
    simp [hbody]
  rw [hsource] at h ⊢
  exact readItem_eq h (by rw [hspan, byteSize_append]) hentry.closed

theorem readWithin_eq {body text : Text} {span : Span}
    (h : byteSize (before ++ body ++ after) < offsetLimit)
    (htext : span.slice (before ++ body ++ after) = .ok text) :
    readWithin (before ++ body ++ after) span ⟨byteSize before, byteSize body⟩ =
      Expression.ofBody (byteSize before) body text span := by
  rw [readWithin, Expression.ofBody, splitWithin_eq _ _ _ h]
  cases hs : Segment.ofLexemes (byteSize before) (Lexeme.read closer? body) with
  | error failure => rfl
  | ok segments =>
    rw [ok_bind, ok_bind, mapM_eq_ok (readItem_of_ofLexemes h hs), ok_bind, htext, check_ok,
      ok_bind]
    rfl

theorem pushText_eq (tokens : List Token) : pushText (ofParts before part ahead after) tokens =
    .ok (tokens ++ Token.literal (byteSize before) part) := by
  rw [pushText, Cursor.current_ofParts, Cursor.span_ofParts, ok_bind, ok_bind]
  by_cases hp : part = []
  · simp [hp, Token.literal_nil]
  · simp [hp, Token.literal_of_ne_nil]

theorem tokenTurn_end (source : Text) (tokens : List Token) :
    tokenTurn source (ofParts before part [] after) tokens =
      .ok (.done (tokens ++ Token.literal (byteSize before) part)) := by
  rw [tokenTurn, Cursor.peek_ofParts, check_ok, ok_bind, pushText_eq]
  rfl

theorem tokenTurn_open (hs : splitGroup? '{' '}' 0 ahead = none)
    (h : byteSize (before ++ part ++ '{' :: ahead ++ after) < offsetLimit) (source : Text)
    (tokens : List Token) :
    tokenTurn source (ofParts before part ('{' :: ahead) after) tokens =
      refuse .unmatchedBrace (.ofChar '{' (byteSize before + byteSize part)) := by
  have hreset : byteSize (before ++ part ++ [] ++ '{' :: ahead ++ after) < offsetLimit := by
    simpa using h
  have hstop : byteSize before + byteSize part + 1 < offsetLimit := by
    simp only [byteSize_append, byteSize_cons, show '{'.utf8Size = 1 from rfl] at h
    omega
  rw [tokenTurn, Cursor.peek_ofParts, check_ok, ok_bind, List.head?_cons]
  simp only [if_true, pushText_eq, Cursor.resetStart_ofParts, skipToPair_open hs hreset, check_ok,
    ok_bind, Cursor.position_ofParts, add_of_lt hstop, Span.between_add]
  rfl

theorem readWithin_group {inside : Text}
    (h : byteSize (before ++ ('{' :: inside ++ ['}']) ++ after) < offsetLimit) :
    readWithin (before ++ ('{' :: inside ++ ['}']) ++ after)
        ⟨byteSize before, byteSize ('{' :: inside ++ ['}'])⟩
        ⟨byteSize before + 1, byteSize inside⟩ =
      Expression.ofGroup (byteSize before) ('{' :: inside ++ ['}']) := by
  have htext := Place.slice_append 0 before ('{' :: inside ++ ['}']) after
  rw [Nat.zero_add] at htext
  have hsource : before ++ ('{' :: inside ++ ['}']) ++ after =
      before ++ ['{'] ++ inside ++ (['}'] ++ after) := by simp
  have hread := @readWithin_eq (before ++ ['{']) (['}'] ++ after) inside
    ('{' :: inside ++ ['}']) ⟨byteSize before, byteSize ('{' :: inside ++ ['}'])⟩
    (by rwa [← hsource]) (by rwa [← hsource])
  have hstart : byteSize (before ++ ['{']) = byteSize before + 1 := byteSize_append before ['{']
  rw [← hsource, hstart] at hread
  rw [hread, Expression.ofGroup_braced]

theorem tokenTurn_group {inside : Text}
    (hs : splitGroup? '{' '}' 0 (inside ++ ['}'] ++ ahead) = some (inside ++ ['}'], ahead))
    (h : byteSize (before ++ part ++ '{' :: (inside ++ ['}'] ++ ahead) ++ after) < offsetLimit)
    (tokens : List Token) :
    tokenTurn (before ++ part ++ '{' :: (inside ++ ['}'] ++ ahead) ++ after)
        (ofParts before part ('{' :: (inside ++ ['}'] ++ ahead)) after) tokens =
      (Expression.ofGroup (byteSize before + byteSize part) ('{' :: inside ++ ['}'])).bind fun e =>
        .ok (.next (ofParts (before ++ part ++ ('{' :: inside ++ ['}'])) [] ahead after)
          (tokens ++ Token.literal (byteSize before) part ++ [.expression e])) := by
  have hsource : before ++ part ++ '{' :: (inside ++ ['}'] ++ ahead) ++ after =
      before ++ part ++ ('{' :: inside ++ ['}']) ++ (ahead ++ after) := by simp
  have hreset : byteSize (before ++ part ++ [] ++ '{' :: (inside ++ ['}'] ++ ahead) ++ after) <
      offsetLimit := by
    simpa using h
  have hskip := skipToPair_group hs hreset
  rw [List.nil_append] at hskip
  rw [hsource] at h ⊢
  have hstop : Span.stop ⟨byteSize (before ++ part), byteSize ('{' :: inside ++ ['}'])⟩ <
      offsetLimit := by
    simp only [Span.stop, byteSize_append] at h ⊢
    omega
  have hshrink : shrink ⟨byteSize (before ++ part), byteSize ('{' :: (inside ++ ['}']))⟩ 1 =
      .ok ⟨byteSize (before ++ part) + 1, byteSize inside⟩ :=
    (shrink_eq hstop 1).trans (Expression.shrink_braced _ inside)
  have hread := readWithin_group h
  rw [List.cons_append] at hread
  rw [tokenTurn, Cursor.peek_ofParts, check_ok, ok_bind, List.head?_cons]
  simp only [if_true, pushText_eq, Cursor.resetStart_ofParts, hskip, check_ok, ok_bind,
    Cursor.span_ofParts, hshrink, List.cons_append, hread]
  rw [byteSize_append]
  rfl

theorem tokenTurn_pass {c : Char} {part' ahead' : Text} (hc : c ≠ '{')
    (hp : pass (ofParts before part (c :: ahead) after) = .ok (ofParts before part' ahead' after))
    (source : Text) (tokens : List Token) :
    tokenTurn source (ofParts before part (c :: ahead) after) tokens =
      .ok (.next (ofParts before part' ahead' after) tokens) := by
  rw [tokenTurn, Cursor.peek_ofParts, check_ok, ok_bind, List.head?_cons]
  simp only [if_neg hc, hp, check_ok, ok_bind]
  rfl

theorem loop_tokenTurn {source : Text} {run : List Lexeme}
    (hsource : source = before ++ spell run ++ ahead ++ after)
    (h : byteSize source < offsetLimit) (tokens : List Token) :
    loop (tokenTurn source) (ofParts before (spell run) ahead after) tokens =
      (Token.ofLexemes (byteSize before) run (Lexeme.read braceCloser? ahead)).map
        (tokens ++ ·) := by
  -- Each turn takes one lexeme; a group ends the run and leaves its own text behind the cursor.
  fun_induction Lexeme.read braceCloser? ahead generalizing before run tokens with
  | case1 =>
    rw [loop_done (tokenTurn_end source tokens)]
    rfl
  | case2 c rest closer hc s ahead hs ih =>
    obtain ⟨rfl, rfl⟩ := braceCloser?_eq_some_iff.mp hc
    obtain ⟨inside, rfl, rfl⟩ := eq_append_of_splitGroup? hs
    have hturn := tokenTurn_group hs (hsource ▸ h) tokens
    rw [← hsource, List.cons_append] at hturn
    rw [Token.ofLexemes]
    cases he : Expression.ofGroup (byteSize before + byteSize (spell run))
        ('{' :: (inside ++ ['}'])) with
    | error failure =>
      rw [he] at hturn
      rw [loop_error hturn]
      rfl
    | ok e =>
      rw [he] at hturn
      have ih := @ih (before ++ spell run ++ '{' :: (inside ++ ['}'])) [] (by simp [hsource])
        (tokens ++ Token.literal (byteSize before) (spell run) ++ [.expression e])
      rw [Lexeme.spell_nil, byteSize_append, byteSize_append] at ih
      rw [loop_moved (List.suffix_append _ _) hturn, ih, ok_bind]
      cases Token.ofLexemes _ [] (Lexeme.read braceCloser? ahead) with
      | error failure => rfl
      | ok others => simp [Except.map]
  | case3 c rest closer hc hs =>
    obtain ⟨rfl, rfl⟩ := braceCloser?_eq_some_iff.mp hc
    rw [loop_error (tokenTurn_open hs (hsource ▸ h) source tokens)]
    rfl
  | case4 c rest hc hq ih =>
    rcases hs : splitQuote c rest with ⟨s, ahead⟩
    obtain rfl : s ++ ahead = rest := by simpa [hs] using splitQuote_append c rest
    rw [hs] at ih
    have hturn := tokenTurn_pass (braceCloser?_eq_none_iff.mp hc)
      (pass_quoted hq hs (hsource ▸ h)) source tokens
    have ih := @ih before (run ++ [.quoted (c :: s)]) (by simp [hsource, Lexeme.text]) tokens
    rw [loop_moved (List.suffix_append s ahead) hturn, Token.ofLexemes_literal rfl, ← ih]
    simp [Lexeme.text]
  | case5 c ahead hc hq ih =>
    have hturn := tokenTurn_pass (braceCloser?_eq_none_iff.mp hc)
      (pass_single (by simpa using hq) (hsource ▸ h)) source tokens
    have ih := @ih before (run ++ [.single c]) (by simp [hsource, Lexeme.text]) tokens
    rw [loop_moved (List.suffix_refl ahead) hturn, Token.ofLexemes_literal rfl, ← ih]
    simp [Lexeme.text]

end

theorem tokenize_eq {template : Text} (h : byteSize template < offsetLimit) :
    tokenize template = Stencil.tokenize template := by
  have hloop := @loop_tokenTurn [] template [] template [] (by simp) h []
  rw [Lexeme.spell_nil, byteSize_nil] at hloop
  rw [tokenize, Span.ofText, if_pos h, check_ok, ok_bind, within_whole, check_ok, ok_bind, hloop,
    Token.tokenize_eq h]
  cases Token.ofLexemes 0 [] (Lexeme.read braceCloser? template) <;> rfl

theorem isBraced_cons_iff {rest : Text} :
    Expression.isBraced ('{' :: rest) = true ↔ splitGroup? '{' '}' 0 rest = some (rest, []) := by
  rw [Expression.isBraced_iff]
  constructor
  · intro h
    have hs := splitGroup?_of_enclosed (by decide) h []
    rwa [List.append_nil] at hs
  · exact enclosed_of_splitGroup? (by decide)

/-- The cursor is at the end after the first brace group if the text is that group. -/
theorem bracedBody_eq {text : Text} (h : byteSize text < offsetLimit) :
    bracedBody text = if Expression.isBraced text then
      (Span.shrink ⟨0, byteSize text⟩ 1).map some else .ok none := by
  have hfits : byteSize ([] ++ [] ++ text ++ []) < offsetLimit := by simpa using h
  have hshrink := @shrink_eq ⟨0, byteSize text⟩ (by simpa [Span.stop] using h) 1
  rw [bracedBody, Span.ofText, if_pos h, ok_bind, within_whole, ok_bind]
  cases text with
  | nil =>
    rw [skipToPair_eq hfits, Cursor.skipToPair, Cursor.remaining_ofParts, Expression.isBraced,
      Lexeme.read_nil]
    rfl
  | cons c rest =>
    by_cases hc : c = '{'
    · subst hc
      simp only [isBraced_cons_iff]
      cases hs : splitGroup? '{' '}' 0 rest with
      | none =>
        simp [skipToPair_open hs hfits]
      | some pair =>
        obtain ⟨s, ahead⟩ := pair
        obtain ⟨_, _, rfl⟩ := eq_append_of_splitGroup? hs
        rw [skipToPair_group hs hfits, ok_bind]
        simp only [Cursor.isAtEnd_ofParts, Bool.true_and]
        cases ahead with
        | nil =>
          simp only [List.append_nil] at hshrink ⊢
          simp only [List.isEmpty_nil, if_true, hshrink]
          cases Span.shrink ⟨0, byteSize ('{' :: s)⟩ 1 <;> rfl
        | cons d ahead => simp
    · have hb : Expression.isBraced (c :: rest) = false := by
        rw [Bool.eq_false_iff, Ne, Expression.isBraced_iff]
        intro he
        simpa [hc] using he.opens
      rw [skipToPair_other hc hfits, hb]
      rfl

theorem parse_eq {text : Text} (h : byteSize text < offsetLimit) :
    parse text = Expression.parse text := by
  rw [parse, Span.ofText, if_pos h, check_ok, ok_bind, bracedBody_eq h]
  by_cases hb : Expression.isBraced text = true
  · have henclosed := Expression.isBraced_iff.mp hb
    rw [Expression.parse_eq_ofGroup henclosed h, if_pos hb]
    obtain ⟨inside, rfl⟩ := henclosed.exists_inside (by decide)
    have hread := @readWithin_group [] [] inside (by simpa using h)
    rw [List.nil_append, List.append_nil, byteSize_nil] at hread
    rw [Expression.shrink_braced, ← hread]
    rfl
  · have hslice : Span.slice ⟨0, byteSize text⟩ ([] ++ text ++ []) = .ok text := by
      rw [List.nil_append, List.append_nil]
      exact Place.slice_whole text
    have hread := readWithin_eq (by simpa using h) hslice
    rw [List.nil_append, List.append_nil, byteSize_nil] at hread
    rw [Expression.parse_eq_ofBody (fun he => hb (Expression.isBraced_iff.mpr he)) h, if_neg hb,
      ← hread]
    rfl

theorem split_ne_fault {text : Text} (h : byteSize text < offsetLimit) (fault : Fault) :
    Segment.split text ≠ .error (.fault fault) := by
  intro hf
  rw [Segment.split_eq_ofLexemes h] at hf
  obtain ⟨_, _, _, _, _, _, _, hfailure⟩ := Segment.exists_opener_of_ofLexemes hf
  cases hfailure

theorem ofBody_ne_fault {offset : Nat} {body source : Text} {span : Span} (fault : Fault) :
    Expression.ofBody offset body source span ≠ .error (.fault fault) := by
  intro hf
  rcases Expression.ofBody_eq_error hf with hsplit | hmixed
  · obtain ⟨_, _, _, _, _, _, _, hfailure⟩ := Segment.exists_opener_of_ofLexemes hsplit
    cases hfailure
  · cases hmixed

theorem parse_ne_fault {text : Text} (h : byteSize text < offsetLimit) (fault : Fault) :
    Expression.parse text ≠ .error (.fault fault) := by
  by_cases he : Enclosed '{' '}' text
  · rw [Expression.parse_eq_ofGroup he h]
    exact ofBody_ne_fault fault
  · rw [Expression.parse_eq_ofBody he h]
    exact ofBody_ne_fault fault

theorem tokenize_ne_fault {template : Text} (h : byteSize template < offsetLimit) (fault : Fault) :
    Stencil.tokenize template ≠ .error (.fault fault) := by
  intro hf
  obtain ⟨_, _, _, _, _, hfails⟩ := Token.fails_of_tokenize h hf
  cases hfails with
  | group _ he => exact ofBody_ne_fault fault he

/-- In words, no slice, no span, no sum and no difference is at fault, whatever the text, and what
is read is what is read in numbers. -/
theorem reads_without_fault {text : Text} (h : byteSize text < offsetLimit) :
    (tokenize text = Stencil.tokenize text ∧ ∀ fault, tokenize text ≠ .error (.fault fault)) ∧
    (parse text = Expression.parse text ∧ ∀ fault, parse text ≠ .error (.fault fault)) ∧
    (split text = Segment.split text ∧ ∀ fault, split text ≠ .error (.fault fault)) := by
  rw [tokenize_eq h, parse_eq h, split_eq h]
  exact ⟨⟨rfl, tokenize_ne_fault h⟩, ⟨rfl, parse_ne_fault h⟩, rfl, split_ne_fault h⟩

theorem reads_without_fault_wide :
    tokenize "é\x7bü:\u3000([🎉)?\x7d\u3000".toList =
      .ok [.text "é".toList ⟨0, 2⟩, .expression ⟨[⟨"([🎉)".toList, some ['ü'], some existence,
        ⟨3, 14⟩⟩], ⟨2, 16⟩, "\x7bü:\u3000([🎉)?\x7d".toList⟩, .text "\u3000".toList ⟨18, 3⟩] ∧
    parse "\x7b日: [本🎉\x7d".toList = .error (.refused ⟨.unmatchedPair '[', ⟨6, 1⟩⟩) ∧
    split "\u3000(é, b) ,\u2028 '🎉,".toList =
      .ok [⟨"(é, b)".toList, ⟨3, 7⟩⟩, ⟨"'🎉,".toList, ⟨16, 6⟩⟩] := by
  refine ⟨?_, ?_, ?_⟩
  · rw [(reads_without_fault (by decide)).1.1]
    decide +kernel
  · rw [(reads_without_fault (by decide)).2.1.1]
    decide +kernel
  · rw [(reads_without_fault (by decide)).2.2.1]
    decide +kernel

end Stencil.Word
