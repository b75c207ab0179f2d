import Stencil.Proofs.Segment

/-!
# Entries

An entry is a text that can be a segment: it is not empty, no blank stands at its
ends, and none of its lexemes is a comma or an open group. It is whole if none of
its lexemes is trailing. The segments of a body are entries, and all but the last
are whole; such entries, joined by commas, are cut apart again into themselves.
-/

set_option autoImplicit false

namespace Stencil.Segment

open Lexeme (spell Closed Lexed)

def Inert (text : Text) : Prop :=
  ∀ lexeme ∈ Lexeme.read closer? text, lexeme.isUnclosed = false ∧ lexeme ≠ .single ','

structure Entry (text : Text) : Prop where
  ne_nil : text ≠ []
  trimmed : Trimmed text
  inert : Inert text

theorem Entry.closed {text : Text} (h : Entry text) :
    ∀ lexeme ∈ Lexeme.read closer? text, lexeme.isUnclosed = false :=
  fun lexeme hl => (h.inert lexeme hl).1

theorem Entry.uncut {text : Text} (h : Entry text) : .single ',' ∉ Lexeme.read closer? text :=
  fun hl => (h.inert _ hl).2 rfl

def Whole (text : Text) : Prop := ∀ lexeme ∈ Lexeme.read closer? text, Closed closer? lexeme

def Joinable : List Text → Prop
  | [] => True
  | text :: rest => Entry text ∧ (rest ≠ [] → Whole text) ∧ Joinable rest

def Separated : List (List Lexeme) → Prop
  | [] => True
  | piece :: rest => Lexed closer? piece ∧ .single ',' ∉ piece ∧
      (rest ≠ [] → ∀ lexeme ∈ piece, Closed closer? lexeme) ∧ Separated rest

theorem separated_pieces {lexemes : List Lexeme} (h : Lexed closer? lexemes) :
    Separated (pieces lexemes) := by
  induction lexemes with
  | nil => exact ⟨.nil, by simp, by simp, trivial⟩
  | cons lexeme rest ih =>
    obtain ⟨hrest, hclosed⟩ := @Lexed.of_append _ [lexeme] rest h
    have ih := ih hrest
    by_cases hc : lexeme = .single ','
    · subst hc
      rw [pieces_comma]
      exact ⟨.nil, by simp, by simp, ih⟩
    · rw [pieces_cons hc]
      have hrun : rest = [] → pieces rest = [[]] := by
        rintro rfl
        rfl
      cases hp : pieces rest with
      | nil => exact trivial
      | cons piece others =>
        rw [hp] at ih hrun
        obtain ⟨hl, hn, ho, hs⟩ := ih
        rw [List.modifyHead_cons]
        refine ⟨?_, ?_, ?_, hs⟩
        · by_cases hr : rest = []
          · obtain ⟨rfl, _⟩ : piece = [] ∧ others = [] := by simpa using hrun hr
            rwa [hr] at h
          · exact .cons (hclosed hr lexeme (by simp)) hl
        · simpa [hn] using fun heq => hc heq.symm
        · intro hne
          have hr : rest ≠ [] := by
            intro hr
            obtain ⟨_, ho'⟩ : piece = [] ∧ others = [] := by simpa using hrun hr
            exact hne ho'
          exact List.forall_mem_cons.mpr ⟨hclosed hr lexeme (by simp), ho hne⟩

/-- Trimming a piece leaves an entry, or nothing. -/
theorem entry_trim {piece : List Lexeme} (hl : Lexed closer? piece) (hc : .single ',' ∉ piece)
    (hu : ∀ lexeme ∈ piece, lexeme.isUnclosed = false) (hne : trim (spell piece) ≠ []) :
    Entry (trim (spell piece)) ∧
      ((∀ lexeme ∈ piece, Closed closer? lexeme) → Whole (trim (spell piece))) := by
  obtain ⟨w, hw, ht⟩ := eq_append_trim (spell piece)
  have hread := hl.read_spell bracketing_closer?
  rw [ht, List.append_assoc,
    Lexeme.read_blanks_append bracketing_closer? (blanks_leadingBlanks _)] at hread
  have hmem : ∀ lexeme ∈ Lexeme.read closer? (trim (spell piece) ++ w), lexeme ∈ piece := by
    intro lexeme h
    rw [← hread]
    exact List.mem_append_right _ h
  have hinert : ∀ lexeme ∈ piece, lexeme.isUnclosed = false ∧ lexeme ≠ .single ',' :=
    fun lexeme h => ⟨hu lexeme h, fun heq => hc (heq ▸ h)⟩
  -- The blanks after the entry are lexemes of the piece or lengthen a trailing one.
  rcases Lexeme.read_append_blanks bracketing_closer? (trim (spell piece)) hw with
    ⟨hall, hr⟩ | ⟨init, last, hi, hlast, hr⟩
  · rw [hr] at hmem
    have hmem : ∀ lexeme ∈ Lexeme.read closer? (trim (spell piece)), lexeme ∈ piece :=
      fun lexeme h => hmem lexeme (List.mem_append_left _ h)
    exact ⟨⟨hne, trimmed_trim _, fun l h => hinert l (hmem l h)⟩, fun _ => hall⟩
  · rw [hr] at hmem
    have hinit : ∀ lexeme ∈ init, lexeme ∈ piece :=
      fun lexeme h => hmem lexeme (List.mem_append_left _ h)
    have hext := hmem (last.extend w) (by simp)
    refine ⟨⟨hne, trimmed_trim _, ?_⟩, ?_⟩
    · intro lexeme h
      rw [hi] at h
      rcases List.mem_append.mp h with h | h
      · exact hinert lexeme (hinit lexeme h)
      · obtain rfl := List.mem_singleton.mp h
        refine ⟨?_, ?_⟩
        · rw [← Lexeme.isUnclosed_extend lexeme w]
          exact hu _ hext
        · rintro rfl
          cases hlast
    · intro hclosed
      exact absurd (hclosed _ hext) (hlast.extend bracketing_closer? hw).not_closed

theorem ofPiece_blank {offset : Nat} {piece : Text} (h : trim piece = []) :
    ofPiece offset piece = [] := by
  simp [ofPiece, h]

theorem ofPiece_entry {offset : Nat} {piece : Text} (h : trim piece ≠ []) :
    ofPiece offset piece =
      [⟨trim piece, ⟨offset + byteSize (leadingBlanks piece), byteSize (trim piece)⟩⟩] := by
  simp [ofPiece, h]

theorem texts_ofPieces (offset : Nat) (runs : List (List Lexeme)) :
    (ofPieces offset runs).map text = (runs.map (trim ∘ spell)).filter (· ≠ []) := by
  induction runs generalizing offset with
  | nil => rfl
  | cons piece rest ih =>
    rw [ofPieces, List.map_append, ih]
    by_cases h : trim (spell piece) = []
    · simp [ofPiece_blank h, h]
    · simp [ofPiece_entry h, h]

theorem joinable_of_separated {runs : List (List Lexeme)} (h : Separated runs)
    (hu : ∀ piece ∈ runs, ∀ lexeme ∈ piece, lexeme.isUnclosed = false) :
    Joinable ((runs.map (trim ∘ spell)).filter (· ≠ [])) := by
  induction runs with
  | nil => trivial
  | cons piece rest ih =>
    obtain ⟨hl, hc, hclosed, hrest⟩ := h
    have ih := ih hrest (fun p hp => hu p (by simp [hp]))
    by_cases ht : trim (spell piece) = []
    · simpa [ht] using ih
    · obtain ⟨hentry, hwhole⟩ := entry_trim hl hc (hu piece (by simp)) ht
      rw [List.map_cons, List.filter_cons_of_pos (by simpa using ht)]
      refine ⟨hentry, fun hne => hwhole (hclosed ?_), ih⟩
      rintro rfl
      exact hne rfl

theorem mem_of_mem_pieces {lexemes piece : List Lexeme} {lexeme : Lexeme}
    (h : piece ∈ pieces lexemes) (hl : lexeme ∈ piece) : lexeme ∈ lexemes := by
  induction lexemes generalizing piece with
  | nil => simp_all [pieces_nil]
  | cons first rest ih =>
    by_cases hc : first = .single ','
    · rw [hc, pieces_comma] at h
      rcases List.mem_cons.mp h with rfl | h
      · simp at hl
      · exact List.mem_cons_of_mem _ (ih h hl)
    · rw [pieces_cons hc] at h
      cases hp : pieces rest with
      | nil => simp [hp] at h
      | cons run runs =>
        rw [hp, List.modifyHead_cons] at h
        rcases List.mem_cons.mp h with rfl | h
        · rcases List.mem_cons.mp hl with rfl | hl
          · simp
          · exact List.mem_cons_of_mem _ (ih (by simp [hp]) hl)
        · exact List.mem_cons_of_mem _ (ih (by simp [hp, h]) hl)

theorem ofLexemes_eq_ok {offset : Nat} {lexemes : List Lexeme} {segments : List Segment}
    (h : ofLexemes offset lexemes = .ok segments) :
    (∀ lexeme ∈ lexemes, lexeme.isUnclosed = false) ∧
      segments = ofPieces offset (pieces lexemes) := by
  rw [ofLexemes, Lexeme.unlessUnclosed] at h
  split at h
  · cases h
  · next hu => exact ⟨Lexeme.unclosed?_eq_none_iff.mp hu, by simpa using h.symm⟩

theorem ofLexemes_of_closed {lexemes : List Lexeme}
    (h : ∀ lexeme ∈ lexemes, lexeme.isUnclosed = false) (offset : Nat) :
    ofLexemes offset lexemes = .ok (ofPieces offset (pieces lexemes)) := by
  rw [ofLexemes, Lexeme.unlessUnclosed, Lexeme.unclosed?_eq_none_iff.mpr h]

theorem ofLexemes_entry {text : Text} (h : Entry text) (offset : Nat) :
    ofLexemes offset (Lexeme.read closer? text) = .ok [⟨text, ⟨offset, byteSize text⟩⟩] := by
  have htrim := trim_of_trimmed h.trimmed
  have hlead : leadingBlanks text = [] := leadingBlanks_append blanks_nil h.trimmed.head
  have hne : trim text ≠ [] := by
    rw [htrim]
    exact h.ne_nil
  rw [ofLexemes_of_closed h.closed, pieces, List.splitOn_eq_singleton h.uncut, ofPieces, ofPieces,
    Lexeme.spell_read, ofPiece_entry hne, htrim, hlead, List.append_nil]
  rfl

/-- The segments of a body are entries, and all but the last are whole. -/
theorem joinable_of_ofLexemes {offset : Nat} {lexemes : List Lexeme} {segments : List Segment}
    (hl : Lexed closer? lexemes) (h : ofLexemes offset lexemes = .ok segments) :
    Joinable (segments.map text) := by
  obtain ⟨hu, rfl⟩ := ofLexemes_eq_ok h
  rw [texts_ofPieces]
  exact joinable_of_separated (separated_pieces hl)
    fun piece hp lexeme hm => hu lexeme (mem_of_mem_pieces hp hm)

theorem Joinable.entry {texts : List Text} (h : Joinable texts) : ∀ text ∈ texts, Entry text := by
  induction texts with
  | nil => simp
  | cons text rest ih => exact List.forall_mem_cons.mpr ⟨h.1, ih h.2.2⟩

theorem entry_of_ofLexemes {offset : Nat} {body : Text} {segments : List Segment}
    (h : ofLexemes offset (Lexeme.read closer? body) = .ok segments) :
    ∀ segment ∈ segments, Entry segment.text := by
  have hjoin := joinable_of_ofLexemes (Lexeme.lexed_read bracketing_closer? body) h
  exact fun segment hs => hjoin.entry segment.text (List.mem_map_of_mem hs)

theorem Whole.read_append {s : Text} (h : Whole s) (t : Text) :
    Lexeme.read closer? (s ++ t) = Lexeme.read closer? s ++ Lexeme.read closer? t :=
  Lexeme.read_append bracketing_closer? h t

theorem read_intercalate {gap : Text} (hgap : Blanks gap) {s t : Text} {rest : List Text}
    (h : Whole s) :
    Lexeme.read closer? ((',' :: gap).intercalate (s :: t :: rest)) =
      Lexeme.read closer? s ++ .single ',' ::
        (gap.map .single ++ Lexeme.read closer? ((',' :: gap).intercalate (t :: rest))) := by
  rw [List.intercalate_cons_cons, List.append_assoc, h.read_append, List.cons_append,
    Lexeme.read_single rfl rfl, Lexeme.read_blanks_append bracketing_closer? hgap]

theorem closed_intercalate {texts : List Text} (h : Joinable texts) :
    ∀ lexeme ∈ Lexeme.read closer? ([',', ' '].intercalate texts), lexeme.isUnclosed = false := by
  induction texts with
  | nil => simp [List.intercalate]
  | cons s rest ih =>
    obtain ⟨hs, hwhole, hrest⟩ := h
    cases rest with
    | nil => simpa [List.intercalate] using hs.closed
    | cons t rest =>
      rw [read_intercalate blanks_space (hwhole (by simp)), List.map_singleton,
        List.singleton_append]
      intro lexeme hl
      simp only [List.mem_append, List.mem_cons] at hl
      rcases hl with hl | rfl | rfl | hl
      · exact hs.closed lexeme hl
      · rfl
      · rfl
      · exact ih hrest lexeme hl

theorem map_trim_blank (runs : List (List Lexeme)) :
    (runs.modifyHead (.single ' ' :: ·)).map (trim ∘ spell) = runs.map (trim ∘ spell) := by
  cases runs with
  | nil => rfl
  | cons run runs =>
    have h : trim (spell (.single ' ' :: run)) = trim (spell run) :=
      trim_blanks_append blanks_space (spell run)
    rw [List.modifyHead_cons, List.map_cons, Function.comp_apply, h]
    rfl

/-- Entries joined by commas are cut apart into themselves. -/
theorem pieces_intercalate {texts : List Text} (h : Joinable texts) (hne : texts ≠ []) :
    (pieces (Lexeme.read closer? ([',', ' '].intercalate texts))).map (trim ∘ spell) = texts := by
  induction texts with
  | nil => exact absurd rfl hne
  | cons s rest ih =>
    obtain ⟨hs, hwhole, hrest⟩ := h
    have hspell : (trim ∘ spell) (Lexeme.read closer? s) = s := by
      rw [Function.comp_apply, Lexeme.spell_read, trim_of_trimmed hs.trimmed]
    cases rest with
    | nil =>
      rw [show [',', ' '].intercalate [s] = s by simp [List.intercalate], pieces,
        List.splitOn_eq_singleton hs.uncut, List.map_singleton, hspell]
    | cons t rest =>
      rw [read_intercalate blanks_space (hwhole (by simp)), pieces,
        List.splitOn_append_cons_self_of_not_mem hs.uncut, List.map_cons, hspell, ← pieces,
        List.map_singleton, List.singleton_append, pieces_cons (by simp)]
      exact congrArg (s :: ·) ((map_trim_blank _).trans (ih hrest (by simp)))

theorem texts_intercalate {texts : List Text} (h : Joinable texts) (offset : Nat) :
    (ofPieces offset (pieces (Lexeme.read closer? ([',', ' '].intercalate texts)))).map text =
      texts := by
  rw [texts_ofPieces]
  by_cases hne : texts = []
  · subst hne
    rw [List.intercalate_nil, Lexeme.read_nil]
    rfl
  · rw [pieces_intercalate h hne]
    exact List.filter_eq_self.mpr fun t ht => by simpa using (h.entry t ht).ne_nil

end Stencil.Segment
