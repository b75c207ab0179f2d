import Stencil.Proofs.Expression.Refusal
import Stencil.Proofs.Token

/-!
# Moving a reading

Where a body stands in its source shows in the spans of what is read from it and
nowhere else: a body that stands further on by some bytes gives the same items, or
the same refusal, with every span moved by as many bytes. So it is with the tokens
of lexemes.
-/

set_option autoImplicit false

namespace Stencil

def Span.shift (amount : Nat) (span : Span) : Span := ⟨span.start + amount, span.length⟩

def SyntaxError.shift (amount : Nat) (error : SyntaxError) : SyntaxError :=
  ⟨error.cause, error.span.shift amount⟩

def Failure.shift (amount : Nat) : Failure → Failure
  | .refused error => .refused (error.shift amount)
  | .fault f => .fault f

def Outcome.shift {α : Type} (move : Nat → α → α) (amount : Nat) : Outcome α → Outcome α
  | .ok a => .ok (move amount a)
  | .error failure => .error (failure.shift amount)

theorem Outcome.shift_eq_ok_iff {α : Type} {move : Nat → α → α} {amount : Nat}
    {outcome : Outcome α} {b : α} :
    Outcome.shift move amount outcome = .ok b ↔ ∃ a, outcome = .ok a ∧ move amount a = b := by
  cases outcome with
  | ok a => simp [Outcome.shift]
  | error failure => simp [Outcome.shift]

namespace Lexeme

theorem unclosed?_shift (position amount : Nat) (lexemes : List Lexeme) :
    unclosed? (position + amount) lexemes =
      (unclosed? position lexemes).map fun (opener, position) => (opener, position + amount) := by
  induction lexemes generalizing position with
  | nil => rfl
  | cons lexeme rest ih =>
    cases lexeme with
    | unclosed => rfl
    | _ => simp only [unclosed?, Nat.add_right_comm position amount, ih]

theorem unlessUnclosed_shift {α : Type} (move : Nat → α → α) (position amount : Nat)
    (lexemes : List Lexeme) (answer : α) :
    unlessUnclosed (position + amount) lexemes (move amount answer) =
      Outcome.shift move amount (unlessUnclosed position lexemes answer) := by
  rw [unlessUnclosed, unlessUnclosed, unclosed?_shift]
  cases unclosed? position lexemes with
  | none => rfl
  | some pair => rfl

end Lexeme

namespace Segment

def shift (amount : Nat) (segment : Segment) : Segment :=
  ⟨segment.text, segment.span.shift amount⟩

theorem ofPiece_shift (offset amount : Nat) (piece : Text) :
    ofPiece (offset + amount) piece = (ofPiece offset piece).map (shift amount) := by
  by_cases h : trim piece = []
  · simp [ofPiece_blank h]
  · simp [ofPiece_entry h, shift, Span.shift, Nat.add_right_comm]

theorem ofPieces_shift (offset amount : Nat) (runs : List (List Lexeme)) :
    ofPieces (offset + amount) runs = (ofPieces offset runs).map (shift amount) := by
  induction runs generalizing offset with
  | nil => rfl
  | cons run runs ih =>
    rw [ofPieces, ofPieces, List.map_append, ofPiece_shift, ← ih]
    congr 2
    omega

theorem ofLexemes_shift (offset amount : Nat) (lexemes : List Lexeme) :
    ofLexemes (offset + amount) lexemes =
      Outcome.shift (fun amount => List.map (shift amount)) amount (ofLexemes offset lexemes) := by
  rw [ofLexemes, ofPieces_shift]
  exact Lexeme.unlessUnclosed_shift (fun amount => List.map (shift amount)) offset amount lexemes _

end Segment

namespace Item

def shift (amount : Nat) (item : Item) : Item :=
  ⟨item.value, item.key, item.condition, item.span.shift amount⟩

theorem item_shift (layout : Layout) (amount : Nat) (span : Span) :
    layout.item (span.shift amount) = (layout.item span).shift amount := by
  rw [Layout.item, Layout.item, settle, settle, Layout.raw, Layout.raw]
  cases stripQuestion? layout.valueText <;> rfl

theorem ofSegment_shift (amount : Nat) (segment : Segment) :
    ofSegment (segment.shift amount) = (ofSegment segment).shift amount :=
  item_shift _ amount segment.span

theorem map_ofSegment_shift (amount : Nat) (segments : List Segment) :
    (segments.map (Segment.shift amount)).map ofSegment =
      (segments.map ofSegment).map (shift amount) := by
  simp only [List.map_map, Function.comp_def, ofSegment_shift]

end Item

theorem isMixed_shift (amount : Nat) (items : List Item) :
    isMixed (items.map (Item.shift amount)) = isMixed items := by
  have h : Item.isKeyed ∘ Item.shift amount = Item.isKeyed := rfl
  rw [isMixed, isMixed, List.any_map, List.all_map, h]

namespace Expression

def shift (amount : Nat) (e : Expression) : Expression :=
  ⟨e.items.map (Item.shift amount), e.span.shift amount, e.source⟩

/-- A body that stands further on gives the same items, moved, or is refused for the same opener,
moved, or for the mix of its items, however the expression is written. -/
theorem ofBody_cases (offset amount : Nat) (body source source' : Text) (span span' : Span) :
    (∃ items, ofBody offset body source span = .ok ⟨items, span, source⟩ ∧
      ofBody (offset + amount) body source' span' =
        .ok ⟨items.map (Item.shift amount), span', source'⟩) ∨
    (∃ opener place, ofBody offset body source span = refuse (.unmatchedPair opener) place ∧
      ofBody (offset + amount) body source' span' =
        refuse (.unmatchedPair opener) (place.shift amount)) ∨
    ofBody offset body source span = refuse (.mixedItems source) span ∧
      ofBody (offset + amount) body source' span' = refuse (.mixedItems source') span' := by
  rw [ofBody, ofBody, Segment.ofLexemes_shift]
  cases hs : Segment.ofLexemes offset (Lexeme.read closer? body) with
  | error failure =>
    obtain ⟨before, opener, _, _, _, _, _, rfl⟩ := Segment.exists_opener_of_ofLexemes hs
    exact .inr (.inl ⟨opener, _, rfl, rfl⟩)
  | ok segments =>
    simp only [Outcome.shift, bind, Except.bind, Item.map_ofSegment_shift, isMixed_shift]
    by_cases hm : isMixed (segments.map Item.ofSegment) = true
    · rw [if_pos hm, if_pos hm]
      exact .inr (.inr ⟨rfl, rfl⟩)
    · rw [if_neg hm, if_neg hm]
      exact .inl ⟨_, rfl, rfl⟩

theorem ofBody_shift (offset amount : Nat) (body source : Text) (span : Span) :
    ofBody (offset + amount) body source (span.shift amount) =
      Outcome.shift shift amount (ofBody offset body source span) := by
  rcases ofBody_cases offset amount body source source span (span.shift amount) with
    ⟨_, hbody, hmoved⟩ | ⟨_, _, hbody, hmoved⟩ | ⟨hbody, hmoved⟩
  all_goals
    rw [hbody, hmoved]
    rfl

theorem ofGroup_shift (position amount : Nat) (group : Text) :
    ofGroup (position + amount) group = Outcome.shift shift amount (ofGroup position group) := by
  rw [ofGroup, ofGroup, Nat.add_right_comm]
  exact ofBody_shift (position + 1) amount _ group ⟨position, byteSize group⟩

end Expression

namespace Token

open Lexeme (spell)

def shift (amount : Nat) : Token → Token
  | text t span => text t (span.shift amount)
  | expression e => expression (e.shift amount)

theorem literal_shift (offset amount : Nat) (run : Text) :
    literal (offset + amount) run = (literal offset run).map (shift amount) := by
  by_cases hr : run = []
  · simp [literal, hr]
  · simp [literal, hr, shift, Span.shift]

theorem ofLexemes_shift (offset amount : Nat) (run lexemes : List Lexeme) :
    ofLexemes (offset + amount) run lexemes =
      Outcome.shift (fun amount => List.map (shift amount)) amount
        (ofLexemes offset run lexemes) := by
  induction lexemes generalizing offset run with
  | nil => exact congrArg Except.ok (literal_shift offset amount (spell run))
  | cons lexeme rest ih =>
    cases lexeme with
    | quoted t => exact ih offset (run ++ [.quoted t])
    | single c => exact ih offset (run ++ [.single c])
    | unclosed opener t =>
      rw [ofLexemes, ofLexemes, Nat.add_right_comm]
      rfl
    | group opener group =>
      have hgroup := Expression.ofGroup_shift (offset + byteSize (spell run)) amount group
      have hrest := ih (offset + byteSize (spell run) + byteSize group) []
      rw [ofLexemes, ofLexemes, Nat.add_right_comm, hgroup, Nat.add_right_comm, hrest]
      cases Expression.ofGroup (offset + byteSize (spell run)) group with
      | error failure => rfl
      | ok e =>
        cases ofLexemes (offset + byteSize (spell run) + byteSize group) [] rest with
        | error failure => rfl
        | ok others =>
          simp only [Outcome.shift, bind, Except.bind, pure, Except.pure, literal_shift,
            List.map_append, List.map_cons, shift]

end Token

end Stencil
