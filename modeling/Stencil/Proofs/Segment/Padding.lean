import Stencil.Proofs.Segment.Entry

/-!
# Blanks around a body

Blanks around a body belong to its first piece and to its last, and trimming takes
them off. So a body in blanks has the segments it has by itself, further on by as
many bytes as the blanks before it, or it is refused for the same opener. Only a
body that ends in an open quote or group draws the blanks after it into a lexeme,
and that lexeme is trimmed too.
-/

set_option autoImplicit false

namespace Stencil

theorem trim_append_blanks {w : Text} (hw : Blanks w) (t : Text) : trim (t ++ w) = trim t := by
  obtain ⟨v, hv, ht⟩ := eq_append_trim t
  have htrim := trim_append (blanks_leadingBlanks t) (trimmed_trim t)
    (blanks_append_iff.mpr ⟨hv, hw⟩)
  rwa [← List.append_assoc, ← ht] at htrim

theorem leadingBlanks_cons {b : Char} (hb : isBlank b = true) (t : Text) :
    leadingBlanks (b :: t) = b :: leadingBlanks t :=
  List.takeWhile_cons_of_pos hb

theorem leadingBlanks_append_right {t : Text} (ht : trim t ≠ []) (w : Text) :
    leadingBlanks (t ++ w) = leadingBlanks t := by
  have hne : trimStart t ≠ [] := by
    intro hnil
    rw [trim, hnil] at ht
    exact ht rfl
  have hhead : ∀ c ∈ (trimStart t ++ w).head?, isBlank c = false := by
    rw [List.head?_append_of_ne_nil _ hne]
    exact head?_trimStart t
  have hlead := leadingBlanks_append (blanks_leadingBlanks t) hhead
  rwa [← List.append_assoc, leadingBlanks_append_trimStart] at hlead

namespace Lexeme

theorem single_ne_comma {b : Char} (hb : isBlank b = true) : single b ≠ single ',' := by
  intro heq
  rw [single.inj heq] at hb
  exact absurd hb (by decide)

/-- The first open group among lexemes does not depend on how the last of them goes on. -/
theorem unclosed?_append_congr {rest rest' : List Lexeme}
    (h : ∀ position, unclosed? position rest' = unclosed? position rest) (lexemes : List Lexeme)
    (position : Nat) :
    unclosed? position (lexemes ++ rest') = unclosed? position (lexemes ++ rest) := by
  induction lexemes generalizing position with
  | nil => exact h position
  | cons lexeme lexemes ih =>
    cases lexeme with
    | unclosed => rfl
    | _ => exact ih _

end Lexeme

namespace Segment

open Lexeme (spell unclosed? unlessUnclosed)

theorem ofPiece_blank_cons {b : Char} (hb : isBlank b = true) (offset : Nat) (t : Text) :
    ofPiece offset (b :: t) = ofPiece (offset + b.utf8Size) t := by
  have htrim : trim (b :: t) = trim t :=
    @trim_blanks_append [b] (by simpa [Blanks] using hb) t
  by_cases ht : trim t = []
  · rw [ofPiece_blank ht, ofPiece_blank (htrim.trans ht)]
  · rw [ofPiece_entry ht, ofPiece_entry (htrim ▸ ht), htrim, leadingBlanks_cons hb, byteSize_cons,
      Nat.add_assoc]

theorem ofPiece_append_blanks {w : Text} (hw : Blanks w) (offset : Nat) (t : Text) :
    ofPiece offset (t ++ w) = ofPiece offset t := by
  have htrim := trim_append_blanks hw t
  by_cases ht : trim t = []
  · rw [ofPiece_blank ht, ofPiece_blank (htrim.trans ht)]
  · rw [ofPiece_entry ht, ofPiece_entry (htrim ▸ ht), htrim, leadingBlanks_append_right ht]

theorem ofLexemes_blank_cons {b : Char} (hb : isBlank b = true) (offset : Nat)
    (lexemes : List Lexeme) :
    ofLexemes offset (.single b :: lexemes) = ofLexemes (offset + b.utf8Size) lexemes := by
  obtain ⟨run, runs, hp⟩ := List.exists_cons_of_ne_nil (List.splitOn_ne_nil (.single ',') lexemes)
  have hpieces : ofPieces offset (pieces (.single b :: lexemes)) =
      ofPieces (offset + b.utf8Size) (pieces lexemes) := by
    rw [pieces_cons (Lexeme.single_ne_comma hb), pieces, hp, List.modifyHead_cons, ofPieces, ofPieces]
    rw [Lexeme.spell_cons, show (Lexeme.single b).text = [b] from rfl, List.singleton_append,
      ofPiece_blank_cons hb, byteSize_cons, ← Nat.add_assoc]
  rw [ofLexemes, Lexeme.unlessUnclosed_cons rfl, hpieces]
  rfl

theorem ofLexemes_blanks_append {u : Text} (hu : Blanks u) (offset : Nat) (t : Text) :
    ofLexemes offset (Lexeme.read closer? (u ++ t)) =
      ofLexemes (offset + byteSize u) (Lexeme.read closer? t) := by
  induction u generalizing offset with
  | nil => rfl
  | cons b u ih =>
    obtain ⟨hb, hu⟩ := List.forall_mem_cons.mp hu
    rw [List.cons_append, Lexeme.read_single (closer?_of_isBlank hb) (isQuote_of_isBlank hb),
      ofLexemes_blank_cons hb, ih hu, byteSize_cons, Nat.add_assoc]

theorem exists_last_piece (lexemes : List Lexeme) :
    ∃ before piece, ∀ tail, .single ',' ∉ tail →
      pieces (lexemes ++ tail) = before ++ [piece ++ tail] := by
  induction lexemes with
  | nil =>
    refine ⟨[], [], fun tail htail => ?_⟩
    exact List.splitOn_eq_singleton htail
  | cons lexeme lexemes ih =>
    obtain ⟨before, piece, h⟩ := ih
    by_cases hc : lexeme = .single ','
    · subst hc
      refine ⟨[] :: before, piece, fun tail htail => ?_⟩
      rw [List.cons_append, pieces_comma, h tail htail, List.cons_append]
    · cases before with
      | nil =>
        refine ⟨[], lexeme :: piece, fun tail htail => ?_⟩
        rw [List.cons_append, pieces_cons hc, h tail htail]
        rfl
      | cons first before =>
        refine ⟨(lexeme :: first) :: before, piece, fun tail htail => ?_⟩
        rw [List.cons_append, pieces_cons hc, h tail htail]
        rfl

theorem ofPieces_append_blanks {w : Text} (hw : Blanks w) {piece piece' : List Lexeme}
    (h : spell piece' = spell piece ++ w) (before : List (List Lexeme)) (offset : Nat) :
    ofPieces offset (before ++ [piece']) = ofPieces offset (before ++ [piece]) := by
  induction before generalizing offset with
  | nil =>
    rw [List.nil_append, List.nil_append, ofPieces, ofPieces, h, ofPiece_append_blanks hw]
    rfl
  | cons first before ih => rw [List.cons_append, List.cons_append, ofPieces, ofPieces, ih]

theorem ofLexemes_tail {w : Text} (hw : Blanks w) {tail tail' : List Lexeme}
    (ht : .single ',' ∉ tail) (ht' : .single ',' ∉ tail') (hspell : spell tail' = spell tail ++ w)
    (hu : ∀ position, unclosed? position tail' = unclosed? position tail) (offset : Nat)
    (lexemes : List Lexeme) :
    ofLexemes offset (lexemes ++ tail') = ofLexemes offset (lexemes ++ tail) := by
  obtain ⟨before, piece, hpieces⟩ := exists_last_piece lexemes
  have hlast : spell (piece ++ tail') = spell (piece ++ tail) ++ w := by
    rw [Lexeme.spell_append, hspell, Lexeme.spell_append, List.append_assoc]
  rw [ofLexemes, ofLexemes, hpieces tail' ht', hpieces tail ht,
    ofPieces_append_blanks hw hlast, unlessUnclosed, unlessUnclosed,
    Lexeme.unclosed?_append_congr hu]

theorem ofLexemes_append_blanks {w : Text} (hw : Blanks w) (offset : Nat) (t : Text) :
    ofLexemes offset (Lexeme.read closer? (t ++ w)) =
      ofLexemes offset (Lexeme.read closer? t) := by
  rcases Lexeme.read_append_blanks bracketing_closer? t hw with
    ⟨_, hr⟩ | ⟨init, last, hi, hlast, hr⟩
  · have hcomma : .single ',' ∉ w.map Lexeme.single := by
      intro hmem
      obtain ⟨c, hc, heq⟩ := List.mem_map.mp hmem
      exact Lexeme.single_ne_comma (hw c hc) heq
    have hclosed : ∀ position, unclosed? position (w.map .single) = unclosed? position [] := by
      intro position
      refine Lexeme.unclosed?_eq_none_iff.mpr fun lexeme hl => ?_
      obtain ⟨c, _, rfl⟩ := List.mem_map.mp hl
      rfl
    have htail := ofLexemes_tail hw (by simp) hcomma (by simp) hclosed offset
      (Lexeme.read closer? t)
    rw [hr, htail, List.append_nil]
  · rw [hr, hi]
    have hcomma : ∀ lexeme, Lexeme.Trailing closer? lexeme → .single ',' ∉ [lexeme] := by
      intro lexeme h hmem
      obtain rfl := List.mem_singleton.mp hmem
      cases h
    refine ofLexemes_tail hw (hcomma _ hlast) (hcomma _ (hlast.extend bracketing_closer? hw)) ?_ ?_
      offset init
    · simp [hlast.text_extend]
    · intro position
      cases last <;> rfl

/-- A body in blanks has the segments of the body, where the body stands. -/
theorem ofLexemes_padded {u w : Text} (hu : Blanks u) (hw : Blanks w) (offset : Nat) (t : Text) :
    ofLexemes offset (Lexeme.read closer? (u ++ t ++ w)) =
      ofLexemes (offset + byteSize u) (Lexeme.read closer? t) := by
  rw [List.append_assoc, ofLexemes_blanks_append hu, ofLexemes_append_blanks hw]

end Segment

end Stencil
