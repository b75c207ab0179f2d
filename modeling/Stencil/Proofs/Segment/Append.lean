import Stencil.Proofs.Segment.Units
import Stencil.Proofs.Shift

/-!
# Bodies with a comma between them

A body that leaves no quoted run open keeps apart what follows a comma after it: the
segments of the two together are those of the first and then those of the second, moved.
What refuses the second body refuses the two together, where it then stands. A segment
has no comma to be cut at, so by itself it is split into itself.
-/

set_option autoImplicit false

namespace Stencil

namespace Segment

open Lexeme (spell unclosed? unlessUnclosed)

def endsInQuote (body : Text) : Bool :=
  (Lexeme.read closer? body).getLast?.any Lexeme.isOpen

def ended (runs : List (List Lexeme)) : List Lexeme := runs.flatMap (· ++ [.single ','])

theorem ended_cons (run : List Lexeme) (runs : List (List Lexeme)) :
    ended (run :: runs) = run ++ .single ',' :: ended runs := by
  rw [ended, List.flatMap_cons, List.append_assoc]
  rfl

theorem ended_pieces (lexemes : List Lexeme) :
    ended (pieces lexemes) = lexemes ++ [.single ','] := by
  induction lexemes with
  | nil => rfl
  | cons lexeme rest ih =>
    by_cases hc : lexeme = .single ','
    · subst hc
      rw [pieces_comma, ended_cons, ih]
      rfl
    · obtain ⟨run, runs, hp⟩ := List.exists_cons_of_ne_nil (List.splitOn_ne_nil (.single ',') rest)
      rw [← pieces] at hp
      rw [hp, ended_cons] at ih
      rw [pieces_cons hc, hp, List.modifyHead_cons, ended_cons, List.cons_append, ih]
      rfl

theorem ofPieces_append (offset : Nat) (runs others : List (List Lexeme)) :
    ofPieces offset (runs ++ others) =
      ofPieces offset runs ++ ofPieces (offset + byteSize (spell (ended runs))) others := by
  induction runs generalizing offset with
  | nil => rfl
  | cons run runs ih =>
    have hsize : byteSize (spell (ended (run :: runs))) =
        byteSize (spell run) + 1 + byteSize (spell (ended runs)) := by
      rw [ended_cons, Lexeme.spell_append, Lexeme.spell_cons, byteSize_append, byteSize_append,
        ← Nat.add_assoc]
      rfl
    rw [List.cons_append, ofPieces, ofPieces, ih, hsize, List.append_assoc]
    simp only [Nat.add_assoc]

theorem ofPieces_comma (offset : Nat) (lexemes rest : List Lexeme) :
    ofPieces offset (pieces (lexemes ++ .single ',' :: rest)) = ofPieces offset (pieces lexemes) ++
      ofPieces (offset + byteSize (spell lexemes) + 1) (pieces rest) := by
  have hsplit : pieces (lexemes ++ .single ',' :: rest) = pieces lexemes ++ pieces rest := by
    rw [pieces, List.splitOn_append_cons_self]
    rfl
  rw [hsplit, ofPieces_append, ended_pieces, Lexeme.spell_append, byteSize_append, ← Nat.add_assoc]
  rfl

/-- Lexemes of which none is left open are cut at the comma after them. -/
theorem ofLexemes_comma {lexemes : List Lexeme}
    (h : ∀ lexeme ∈ lexemes, lexeme.isUnclosed = false) (offset : Nat) (rest : List Lexeme) :
    ofLexemes offset (lexemes ++ .single ',' :: rest) =
      (ofLexemes (offset + byteSize (spell lexemes) + 1) rest).map
        (ofPieces offset (pieces lexemes) ++ ·) := by
  have hfirst : unclosed? offset (lexemes ++ .single ',' :: rest) =
      unclosed? (offset + byteSize (spell lexemes) + 1) rest :=
    Lexeme.unclosed?_append h offset _
  rw [ofLexemes, ofLexemes, Lexeme.map_unlessUnclosed, unlessUnclosed, unlessUnclosed, hfirst,
    ofPieces_comma]

theorem byteSize_lt_of_split {t : Text} {segments : List Segment} (h : split t = .ok segments) :
    byteSize t < offsetLimit := by
  rw [split, Span.ofText] at h
  by_cases hs : byteSize t < offsetLimit
  · exact hs
  · rw [if_neg hs] at h
    cases h

theorem whole_of_split {body : Text} {segments : List Segment} (h : split body = .ok segments)
    (hq : endsInQuote body = false) : Whole body := by
  rw [split_eq_ofLexemes (byteSize_lt_of_split h)] at h
  exact Lexeme.closed_read bracketing_closer? (ofLexemes_eq_ok h).1 hq

theorem split_comma_eq_map {s t : Text} {segments : List Segment} (h : split s = .ok segments)
    (hq : endsInQuote s = false) (hs : byteSize s + 1 + byteSize t < offsetLimit) :
    split (s ++ ',' :: t) =
      (Outcome.shift (fun amount => List.map (shift amount)) (byteSize s + 1) (split t)).map
        (segments ++ ·) := by
  have hwhole := whole_of_split h hq
  have hsize : byteSize (s ++ ',' :: t) < offsetLimit := by
    rw [byteSize_append, byteSize_cons, ← Nat.add_assoc]
    exact hs
  have hshift := ofLexemes_shift 0 (byteSize s + 1) (Lexeme.read closer? t)
  rw [split_eq_ofLexemes (byteSize_lt_of_split h)] at h
  obtain ⟨hclosed, rfl⟩ := ofLexemes_eq_ok h
  rw [split_eq_ofLexemes hsize, split_eq_ofLexemes (by omega), ← hshift, hwhole.read_append,
    Lexeme.read_single rfl rfl, ofLexemes_comma hclosed, Lexeme.spell_read, Nat.add_assoc]

/-- A body after a comma splits if it does by itself, into the same segments further on, and is
refused as it is by itself, with the refusal moved. -/
theorem split_append_comma {s t : Text} {segments : List Segment} (h : split s = .ok segments)
    (hq : endsInQuote s = false) (hs : byteSize s + 1 + byteSize t < offsetLimit) :
    ((∃ others, split (s ++ ',' :: t) = .ok others) ↔ ∃ others, split t = .ok others) ∧
    (∀ others, split t = .ok others →
      split (s ++ ',' :: t) = .ok (segments ++ others.map (shift (byteSize s + 1)))) ∧
    (∀ failure, split t = .error failure →
      split (s ++ ',' :: t) = .error (failure.shift (byteSize s + 1))) := by
  rw [split_comma_eq_map h hq hs]
  cases split t with
  | ok others =>
    refine ⟨⟨fun _ => ⟨others, rfl⟩, fun _ => ⟨_, rfl⟩⟩, ?_, by simp⟩
    intro _ heq
    obtain rfl := Except.ok.inj heq
    rfl
  | error failure =>
    refine ⟨by simp [Outcome.shift, Except.map], by simp, ?_⟩
    intro _ heq
    obtain rfl := Except.error.inj heq
    rfl

theorem split_append_comma_border :
    split " é , (') ,".toList = .ok [⟨['é'], ⟨1, 2⟩⟩, ⟨"(')".toList, ⟨6, 3⟩⟩] ∧
    endsInQuote " é , (') ,".toList = false ∧
    split (" é , (') ,".toList ++ ',' :: " , 'c, ".toList) =
      .ok [⟨['é'], ⟨1, 2⟩⟩, ⟨"(')".toList, ⟨6, 3⟩⟩, ⟨"'c,".toList, ⟨15, 3⟩⟩] ∧
    split (" é , (') ,".toList ++ ',' :: "d]['".toList) =
      .error (.refused ⟨.unmatchedPair '[', ⟨14, 1⟩⟩) := by
  have h : split " é , (') ,".toList = .ok [⟨['é'], ⟨1, 2⟩⟩, ⟨"(')".toList, ⟨6, 3⟩⟩] := by
    decide +kernel
  have hq : endsInQuote " é , (') ,".toList = false := by decide +kernel
  have hok : split " , 'c, ".toList = .ok [⟨"'c,".toList, ⟨3, 3⟩⟩] := by decide +kernel
  have herror : split "d]['".toList = .error (.refused ⟨.unmatchedPair '[', ⟨2, 1⟩⟩) := by
    decide +kernel
  exact ⟨h, hq, (split_append_comma h hq (by decide)).2.1 _ hok,
    (split_append_comma h hq (by decide)).2.2 _ herror⟩

/-- Entries are the texts that are split into themselves. -/
theorem split_eq_self_iff {t : Text} (hs : byteSize t < offsetLimit) :
    split t = .ok [⟨t, ⟨0, byteSize t⟩⟩] ↔ Entry t := by
  rw [split_eq_ofLexemes hs]
  constructor
  · exact fun h => entry_of_ofLexemes h _ (List.mem_singleton.mpr rfl)
  · exact fun h => ofLexemes_entry h 0

theorem byteSize_text_le {t : Text} {segments : List Segment} (h : split t = .ok segments)
    {segment : Segment} (hs : segment ∈ segments) : byteSize segment.text ≤ byteSize t := by
  rw [split_eq_ofLexemes (byteSize_lt_of_split h)] at h
  obtain ⟨_, rfl⟩ := ofLexemes_eq_ok h
  obtain ⟨before, after, ht, _⟩ := exists_of_ofPieces hs
  rw [spell_pieces, Lexeme.spell_read] at ht
  rw [ht, byteSize_append, byteSize_append]
  omega

/-- A segment is split no further: by itself it is one segment, from its start to its end. -/
theorem split_segment {t : Text} {segments : List Segment} (h : split t = .ok segments) :
    ∀ segment ∈ segments,
      split segment.text = .ok [⟨segment.text, ⟨0, byteSize segment.text⟩⟩] := by
  intro segment hs
  have hle := byteSize_text_le h hs
  have hsize := byteSize_lt_of_split h
  rw [split_eq_ofLexemes hsize] at h
  exact (split_eq_self_iff (by omega)).mpr (entry_of_ofLexemes h segment hs)

theorem split_segment_open_quote :
    split "é , ['a, b] ,'c, \x7bd ".toList =
      .ok [⟨['é'], ⟨0, 2⟩⟩, ⟨"['a, b]".toList, ⟨5, 7⟩⟩, ⟨"'c, \x7bd".toList, ⟨14, 6⟩⟩] ∧
    split "['a, b]".toList = .ok [⟨"['a, b]".toList, ⟨0, 7⟩⟩] ∧
    split "'c, \x7bd".toList = .ok [⟨"'c, \x7bd".toList, ⟨0, 6⟩⟩] := by
  have h : split "é , ['a, b] ,'c, \x7bd ".toList =
      .ok [⟨['é'], ⟨0, 2⟩⟩, ⟨"['a, b]".toList, ⟨5, 7⟩⟩, ⟨"'c, \x7bd".toList, ⟨14, 6⟩⟩] := by
    decide +kernel
  have hgroup := split_segment h _ (List.mem_cons_of_mem _ List.mem_cons_self)
  have hquote := split_segment h _
    (List.mem_cons_of_mem _ (List.mem_cons_of_mem _ List.mem_cons_self))
  exact ⟨h, hgroup, hquote⟩

end Segment

end Stencil
