import Stencil.Proofs.Segment.Slice
import Stencil.Proofs.Units

/-!
# Splitting by units

A text splits if none of its openers that are units is left open, and its segments are
then the runs of units between the commas, trimmed, without the blank ones. Otherwise it
is refused for the first such opener, at the place where that opener stands.
-/

set_option autoImplicit false

namespace Stencil

namespace Lexeme

theorem unclosed?_append {front : List Lexeme}
    (h : ∀ lexeme ∈ front, lexeme.isUnclosed = false) (position : Nat) (rest : List Lexeme) :
    unclosed? position (front ++ rest) = unclosed? (position + byteSize (spell front)) rest := by
  induction front generalizing position with
  | nil => rfl
  | cons lexeme front ih =>
    obtain ⟨hlexeme, hfront⟩ := List.forall_mem_cons.mp h
    rw [List.cons_append, unclosed?_cons hlexeme, ih hfront, spell_cons, byteSize_append, size,
      Nat.add_assoc]

theorem Lexed.text_eq_comma_iff {lexemes : List Lexeme} (h : Lexed closer? lexemes) :
    ∀ lexeme ∈ lexemes, lexeme.text = [','] ↔ lexeme = .single ',' := by
  have hclosed : ∀ lexeme, Closed closer? lexeme →
      (lexeme.text = [','] ↔ lexeme = .single ',') := by
    intro lexeme hc
    cases hc with
    | group hb h =>
      obtain ⟨inside, rfl⟩ := h.exists_inside (bracketing_closer?.ne hb)
      simp [text]
    | quoted => simp [text]
    | single => simp [text]
  have htrailing : ∀ lexeme, Trailing closer? lexeme →
      (lexeme.text = [','] ↔ lexeme = .single ',') := by
    intro lexeme ht
    cases ht with
    | quoted _ hq =>
      rcases isQuote_cases hq with rfl | rfl <;> simp [text]
    | unclosed hb =>
      rcases closer?_cases hb with ⟨rfl, _⟩ | ⟨rfl, _⟩ | ⟨rfl, _⟩ <;> simp [text]
  induction h with
  | nil => simp
  | last h => simpa using htrailing _ h
  | cons h _ ih => exact List.forall_mem_cons.mpr ⟨hclosed _ h, ih⟩

end Lexeme

namespace Segment

open Lexeme (spell Lexed)

def textsOfUnits (units : List Text) : List Text :=
  ((units.splitOn [',']).map fun run => trim run.flatten).filter (· ≠ [])

theorem splitOn_texts {lexemes : List Lexeme}
    (h : ∀ lexeme ∈ lexemes, lexeme.text = [','] ↔ lexeme = .single ',') :
    (lexemes.map Lexeme.text).splitOn [','] = (pieces lexemes).map (List.map Lexeme.text) := by
  induction lexemes with
  | nil => rfl
  | cons lexeme rest ih =>
    obtain ⟨hlexeme, hrest⟩ := List.forall_mem_cons.mp h
    rw [List.map_cons, List.splitOn_cons_eq_if_modifyHead, ih hrest]
    by_cases hc : lexeme = .single ','
    · rw [if_pos (by simpa using hlexeme.mpr hc), hc, pieces_comma]
      rfl
    · rw [if_neg (by simpa using fun ht => hc (hlexeme.mp ht)), pieces_cons hc]
      cases pieces rest with
      | nil => rfl
      | cons run runs => rfl

theorem texts_eq_textsOfUnits {lexemes : List Lexeme} (h : Lexed closer? lexemes) (offset : Nat) :
    (ofPieces offset (pieces lexemes)).map text = textsOfUnits (lexemes.map Lexeme.text) := by
  rw [texts_ofPieces, textsOfUnits, splitOn_texts h.text_eq_comma_iff, List.map_map]
  rfl

theorem split_of_closed {t : Text} {units : List Text} (hs : byteSize t < offsetLimit)
    (hu : Units t units) (h : ∀ n, ¬ LeftOpen (units.drop n).flatten) :
    ∃ segments, split t = .ok segments ∧ segments.map text = textsOfUnits units := by
  obtain ⟨htexts, hclosed⟩ := hu.read_closed h
  refine ⟨ofPieces 0 (pieces (Lexeme.read closer? t)), ?_, ?_⟩
  · rw [split_eq_ofLexemes hs, ofLexemes_of_closed hclosed]
  · rw [texts_eq_textsOfUnits (Lexeme.lexed_read bracketing_closer? t), htexts]

/-- A text is refused for the first opener that is left open. -/
theorem split_of_leftOpen {t : Text} {units : List Text} {n : Nat} (hs : byteSize t < offsetLimit)
    (hu : Units t units) (hn : FirstAt LeftOpen units n) :
    ∃ opener rest, (units.drop n).flatten = opener :: rest ∧
      split t = refuse (.unmatchedPair opener)
        (.ofChar opener (byteSize (units.take n).flatten)) := by
  obtain ⟨lexemes, opener, rest, hrest, hread, htexts, hclosed⟩ := hu.read_leftOpen hn
  have hspell : spell lexemes = (units.take n).flatten := by
    rw [← htexts]
    rfl
  refine ⟨opener, rest, hrest, ?_⟩
  rw [split_eq_ofLexemes hs, hread, ofLexemes, Lexeme.unlessUnclosed,
    Lexeme.unclosed?_append hclosed, hspell, Nat.zero_add]
  rfl

/-- A text has one list of units. They tell whether it splits, and into which texts, or for which
opener it is refused. -/
theorem split_by_units {t : Text} (hs : byteSize t < offsetLimit) :
    ∃ units, Units t units ∧ (∀ others, Units t others → others = units) ∧
      ((∃ segments, split t = .ok segments) ↔ ∀ n, ¬ LeftOpen (units.drop n).flatten) ∧
      (∀ segments, split t = .ok segments → segments.map text = textsOfUnits units) ∧
      ∀ failure, split t = .error failure → ∃ n opener rest, FirstAt LeftOpen units n ∧
        (units.drop n).flatten = opener :: rest ∧
        failure = .refused
          ⟨.unmatchedPair opener, .ofChar opener (byteSize (units.take n).flatten)⟩ := by
  obtain ⟨units, hu⟩ := exists_units t
  refine ⟨units, hu, fun _ h => h.unique hu, ?_⟩
  by_cases hclosed : ∀ n, ¬ LeftOpen (units.drop n).flatten
  · obtain ⟨segments, hsplit, htexts⟩ := split_of_closed hs hu hclosed
    rw [hsplit]
    refine ⟨⟨fun _ => hclosed, fun _ => ⟨segments, rfl⟩⟩, ?_, ?_⟩
    · intro segments' h
      rwa [← Except.ok.inj h]
    · intro failure h
      cases h
  · obtain ⟨m, hm⟩ := not_forall_not.mp hclosed
    obtain ⟨n, hn⟩ := exists_firstAt hm
    obtain ⟨opener, rest, hrest, hsplit⟩ := split_of_leftOpen hs hu hn
    rw [hsplit]
    refine ⟨⟨?_, fun h => absurd h hclosed⟩, ?_, ?_⟩
    · rintro ⟨_, h⟩
      cases h
    · intro segments h
      cases h
    · intro failure h
      exact ⟨n, opener, rest, hn, hrest, (Except.error.inj h).symm⟩

theorem split_by_units_misnested :
    (byteSize "é[a(] , ,'b, ".toList < offsetLimit ∧
      Units "é[a(] , ,'b, ".toList
        [['é'], "[a(]".toList, [' '], [','], [' '], [','], "'b, ".toList] ∧
      ∃ segments, split "é[a(] , ,'b, ".toList = .ok segments ∧
        segments.map text = ["é[a(]".toList, "'b,".toList]) ∧
    byteSize "é,[(b".toList < offsetLimit ∧
      split "é,[(b".toList = .error (.refused ⟨.unmatchedPair '[', ⟨3, 1⟩⟩) ∧
      ∃ units n rest, Units "é,[(b".toList units ∧ FirstAt LeftOpen units n ∧
        (units.drop n).flatten = '[' :: rest ∧ byteSize (units.take n).flatten = 3 := by
  have hs : byteSize "é[a(] , ,'b, ".toList < offsetLimit := by decide
  have hs' : byteSize "é,[(b".toList < offsetLimit := by decide
  have hunits := @units_of_closed "é[a(] , ,'b, ".toList (by decide +kernel)
  rw [show (Lexeme.read closer? "é[a(] , ,'b, ".toList).map Lexeme.text =
    [['é'], "[a(]".toList, [' '], [','], [' '], [','], "'b, ".toList] by decide +kernel] at hunits
  have hsplit : split "é[a(] , ,'b, ".toList =
      .ok [⟨"é[a(]".toList, ⟨0, 6⟩⟩, ⟨"'b,".toList, ⟨10, 3⟩⟩] := by
    decide +kernel
  have hrefused : split "é,[(b".toList = .error (.refused ⟨.unmatchedPair '[', ⟨3, 1⟩⟩) := by
    decide +kernel
  obtain ⟨units, _, hunique, _, htexts, _⟩ := split_by_units hs
  obtain rfl := hunique _ hunits
  obtain ⟨units', hunits', _, _, _, herror⟩ := split_by_units hs'
  obtain ⟨n, opener, rest, hn, hrest, hfailure⟩ := herror _ hrefused
  obtain ⟨rfl, hspan⟩ : '[' = opener ∧
      (⟨3, 1⟩ : Span) = .ofChar opener (byteSize (units'.take n).flatten) := by
    simpa using hfailure
  have hstart := congrArg Span.start hspan
  exact ⟨⟨hs, hunits, _, hsplit, htexts _ hsplit⟩, hs', hrefused, units', n, rest, hunits', hn,
    hrest, hstart.symm⟩

end Segment

end Stencil
