import Stencil.Segment
import Stencil.Proofs.Lexeme.Blank

/-!
# What a body is cut into

A body is refused for the first opener without its closer and for nothing else.
Otherwise its segments are the pieces between the commas among its lexemes,
trimmed, without the blank ones. They can be cut off and put together again: the
lexemes of a segment are those of its piece, and only the last segment of a body
may end in a quoted run without its second quote.
-/

set_option autoImplicit false

namespace Stencil

namespace Lexeme

def isUnclosed : Lexeme → Bool
  | unclosed .. => true
  | _ => false

theorem isUnclosed_extend (lexeme : Lexeme) (w : Text) :
    (lexeme.extend w).isUnclosed = lexeme.isUnclosed := by
  cases lexeme <;> rfl

def unclosed? (position : Nat) : List Lexeme → Option (Char × Nat)
  | [] => none
  | unclosed opener _ :: _ => some (opener, position)
  | lexeme :: rest => unclosed? (position + lexeme.size) rest

theorem unclosed?_cons {lexeme : Lexeme} (h : lexeme.isUnclosed = false) (position : Nat)
    (rest : List Lexeme) :
    unclosed? position (lexeme :: rest) = unclosed? (position + lexeme.size) rest := by
  cases lexeme with
  | unclosed => simp [isUnclosed] at h
  | _ => rfl

def unlessUnclosed {α : Type} (position : Nat) (lexemes : List Lexeme) (answer : α) : Outcome α :=
  match unclosed? position lexemes with
  | some (opener, position) => refuse (.unmatchedPair opener) (.ofChar opener position)
  | none => .ok answer

theorem unlessUnclosed_cons {α : Type} {lexeme : Lexeme} (h : lexeme.isUnclosed = false)
    (position : Nat) (rest : List Lexeme) (answer : α) :
    unlessUnclosed position (lexeme :: rest) answer =
      unlessUnclosed (position + lexeme.size) rest answer := by
  rw [unlessUnclosed, unclosed?_cons h, ← unlessUnclosed]

theorem map_unlessUnclosed {α β : Type} (f : α → β) (position : Nat) (lexemes : List Lexeme)
    (answer : α) : (unlessUnclosed position lexemes answer).map f =
      unlessUnclosed position lexemes (f answer) := by
  unfold unlessUnclosed
  split <;> rfl

theorem unclosed?_eq_none_iff {position : Nat} {lexemes : List Lexeme} :
    unclosed? position lexemes = none ↔ ∀ lexeme ∈ lexemes, lexeme.isUnclosed = false := by
  induction lexemes generalizing position with
  | nil => simp [unclosed?]
  | cons lexeme rest ih => cases lexeme <;> simp [unclosed?, isUnclosed, ih]

def isOpen : Lexeme → Bool
  | quoted (quote :: inside) => !inside.contains quote
  | _ => false

theorem Lexed.closed {brackets : Char → Option Char} {lexemes : List Lexeme}
    (h : Lexed brackets lexemes) (hu : ∀ lexeme ∈ lexemes, lexeme.isUnclosed = false)
    (ho : ∀ lexeme ∈ lexemes.getLast?, lexeme.isOpen = false) :
    ∀ lexeme ∈ lexemes, Closed brackets lexeme := by
  -- A trailing lexeme comes last, and it is one of the two that are ruled out.
  induction h with
  | nil => simp
  | last ht =>
    cases ht with
    | quoted _ _ hi =>
      have := ho _ rfl
      simp [isOpen, hi] at this
    | unclosed =>
      have := hu _ (List.mem_singleton.mpr rfl)
      cases this
  | cons hc _ ih =>
    refine List.forall_mem_cons.mpr ⟨hc, ih (fun l hl => hu l (by simp [hl])) ?_⟩
    intro l hl
    exact ho l (List.mem_getLast?_cons hl)

/-- A reading that comes to the end of the text in no quoted run and no group is one of closed
lexemes. -/
theorem closed_read {brackets : Char → Option Char} (hb : Bracketing brackets) {t : Text}
    (hu : ∀ lexeme ∈ read brackets t, lexeme.isUnclosed = false)
    (ho : (read brackets t).getLast?.any isOpen = false) :
    ∀ lexeme ∈ read brackets t, Closed brackets lexeme := by
  apply (lexed_read hb t).closed hu
  intro lexeme hm
  rw [Option.mem_def.mp hm] at ho
  exact ho

end Lexeme

namespace Segment

def pieces (lexemes : List Lexeme) : List (List Lexeme) := lexemes.splitOn (.single ',')

def ofPieces (offset : Nat) : List (List Lexeme) → List Segment
  | [] => []
  | piece :: rest =>
    ofPiece offset (Lexeme.spell piece)
      ++ ofPieces (offset + byteSize (Lexeme.spell piece) + 1) rest

def ofLexemes (offset : Nat) (lexemes : List Lexeme) : Outcome (List Segment) :=
  Lexeme.unlessUnclosed offset lexemes (ofPieces offset (pieces lexemes))

theorem pieces_nil : pieces [] = [[]] := rfl

theorem pieces_comma (rest : List Lexeme) :
    pieces (.single ',' :: rest) = [] :: pieces rest := by
  simp [pieces, List.splitOn_cons_eq_if_modifyHead]

theorem pieces_cons {lexeme : Lexeme} (h : lexeme ≠ .single ',') (rest : List Lexeme) :
    pieces (lexeme :: rest) = (pieces rest).modifyHead (lexeme :: ·) := by
  simp [pieces, List.splitOn_cons_eq_if_modifyHead, h]

theorem cut_nil (offset : Nat) (run : Text) :
    cut ⟨offset, run⟩ (offset + byteSize run) [] = .ok (ofPiece offset run) := by
  have h := Place.readTo_append offset run []
  rw [List.append_nil] at h
  rw [cut, h]
  rfl

theorem cut_comma (offset : Nat) (run after : Text) (rest : List Lexeme) :
    cut ⟨offset, run ++ ',' :: after⟩ (offset + byteSize run) (.single ',' :: rest) =
      (cut ⟨offset + byteSize run + 1, after⟩ (offset + byteSize run + 1) rest).map
        (ofPiece offset run ++ ·) := by
  have hcomma := Place.readTo_append (offset + byteSize run) [','] after
  rw [cut, Place.readTo_append]
  simp only [check_ok, bind, Except.bind]
  rw [show offset + byteSize run + 1 = offset + byteSize run + byteSize [','] from rfl]
  rw [show ',' :: after = [','] ++ after from rfl, hcomma]
  simp only [check_ok]
  cases cut ⟨offset + byteSize run + byteSize [','], after⟩ _ rest <;> rfl

theorem cut_join {lexeme : Lexeme} (hc : lexeme ≠ .single ',') (hu : lexeme.isUnclosed = false)
    (place : Place) (position : Nat) (rest : List Lexeme) :
    cut place position (lexeme :: rest) = cut place (position + lexeme.size) rest := by
  cases lexeme with
  | group => rfl
  | quoted => rfl
  | single c =>
    rw [cut]
    · simp
    · simpa using hc
  | unclosed => simp [Lexeme.isUnclosed] at hu

theorem modifyHead_nil_append (runs : List (List Lexeme)) :
    runs.modifyHead (([] : List Lexeme) ++ ·) = runs := by
  cases runs <;> rfl

/-- Cutting reads from the source what the lexemes already tell. -/
theorem cut_eq (offset : Nat) (run lexemes : List Lexeme) :
    cut ⟨offset, Lexeme.spell (run ++ lexemes)⟩ (offset + byteSize (Lexeme.spell run)) lexemes =
      Lexeme.unlessUnclosed (offset + byteSize (Lexeme.spell run)) lexemes
        (ofPieces offset ((pieces lexemes).modifyHead (run ++ ·))) := by
  induction lexemes generalizing offset run with
  | nil => simp [cut_nil, Lexeme.unlessUnclosed, Lexeme.unclosed?, pieces_nil, ofPieces]
  | cons lexeme rest ih =>
    by_cases hu : lexeme.isUnclosed = true
    · cases lexeme with
      | unclosed => rfl
      | _ => simp [Lexeme.isUnclosed] at hu
    have hu : lexeme.isUnclosed = false := by simpa using hu
    rw [Lexeme.unlessUnclosed_cons hu, Lexeme.spell_append, Lexeme.spell_cons]
    by_cases hc : lexeme = .single ','
    · subst hc
      have h := ih (offset + byteSize (Lexeme.spell run) + 1) []
      rw [modifyHead_nil_append, List.nil_append, Lexeme.spell_nil, byteSize_nil, Nat.add_zero] at h
      rw [show (Lexeme.single ',').text = [','] from rfl, List.singleton_append, cut_comma, h,
        pieces_comma, Lexeme.map_unlessUnclosed, List.modifyHead_cons, List.append_nil, ofPieces]
      rfl
    · have h := ih offset (run ++ [lexeme])
      simp only [Lexeme.spell_append, Lexeme.spell_cons, Lexeme.spell_nil, List.append_nil,
        List.append_assoc, byteSize_append, ← Nat.add_assoc] at h
      rw [cut_join hc hu, pieces_cons hc, List.modifyHead_modifyHead]
      simpa [Lexeme.size, Function.comp_def] using h

theorem cut_read (offset : Nat) (body : Text) :
    cut ⟨offset, body⟩ offset (Lexeme.read closer? body) =
      ofLexemes offset (Lexeme.read closer? body) := by
  have h := cut_eq offset [] (Lexeme.read closer? body)
  rw [modifyHead_nil_append, List.nil_append, Lexeme.spell_nil, byteSize_nil, Nat.add_zero,
    Lexeme.spell_read] at h
  exact h

theorem splitWithin_of_slice {source : Place} {window : Span} {body : Text}
    (h : source.slice window = .ok body) :
    splitWithin source window = ofLexemes window.start (Lexeme.read closer? body) := by
  rw [splitWithin, h]
  exact cut_read window.start body

theorem exists_slice_of_splitWithin {source : Place} {window : Span} {segments : List Segment}
    (h : splitWithin source window = .ok segments) :
    ∃ body, source.slice window = .ok body ∧
      ofLexemes window.start (Lexeme.read closer? body) = .ok segments := by
  cases hs : source.slice window with
  | error fault =>
    rw [splitWithin, hs] at h
    cases h
  | ok body => exact ⟨body, rfl, by rw [← splitWithin_of_slice hs, h]⟩

end Segment

end Stencil
