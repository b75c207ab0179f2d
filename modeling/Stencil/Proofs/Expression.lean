import Stencil.Expression
import Stencil.Proofs.Item.Layout
import Stencil.Proofs.Segment.Slice

/-!
# What an expression is read from

An expression depends on the text of its body and on the offset at which the body
stands, and on nothing else of the source. Every segment of a body is read as an
item, so a body is refused only by the splitter or for a mix of items.
-/

set_option autoImplicit false

namespace Stencil

def Item.ofSegment (segment : Segment) : Item :=
  (Item.layout (Lexeme.read closer? segment.text)).item segment.span

namespace Segment

theorem read_of_ofLexemes {offset : Nat} {body : Text} {segments : List Segment}
    (h : ofLexemes offset (Lexeme.read closer? body) = .ok segments) :
    ∀ segment ∈ segments, Item.read segment = .ok (Item.ofSegment segment) := by
  intro segment hs
  have hjoin := joinable_of_ofLexemes (Lexeme.lexed_read bracketing_closer? body) h
  have hentry := hjoin.entry segment.text (List.mem_map_of_mem hs)
  obtain ⟨_, rfl⟩ := ofLexemes_eq_ok h
  obtain ⟨_, _, _, hspan⟩ := exists_of_ofPieces hs
  exact Item.read_eq (by rw [hspan]) hentry.closed

end Segment

theorem mapM_eq_ok {α β : Type} {f : α → Outcome β} {g : α → β} {xs : List α}
    (h : ∀ x ∈ xs, f x = .ok (g x)) : xs.mapM f = .ok (xs.map g) := by
  induction xs with
  | nil => rfl
  | cons x xs ih =>
    rw [List.mapM_cons, h x (by simp), ih fun y hy => h y (by simp [hy])]
    rfl

namespace Expression

def ofBody (offset : Nat) (body source : Text) (span : Span) : Outcome Expression := do
  let segments ← Segment.ofLexemes offset (Lexeme.read closer? body)
  let items := segments.map Item.ofSegment
  if isMixed items then refuse (.mixedItems source) span else .ok ⟨items, span, source⟩

theorem read_eq_ofBody {source : Place} {span window : Span} {body text : Text}
    (hbody : source.slice window = .ok body) (htext : source.slice span = .ok text) :
    read source span window = ofBody window.start body text span := by
  rw [read, ofBody, Segment.splitWithin_of_slice hbody, htext]
  cases hs : Segment.ofLexemes window.start (Lexeme.read closer? body) with
  | error failure => rfl
  | ok segments =>
    have hm := mapM_eq_ok (Segment.read_of_ofLexemes hs)
    simp only [bind, Except.bind, hm, check_ok]
    split <;> rfl

theorem ofBody_eq_ok_iff {offset : Nat} {body source : Text} {span : Span} {e : Expression} :
    ofBody offset body source span = .ok e ↔
      ∃ segments, Segment.ofLexemes offset (Lexeme.read closer? body) = .ok segments ∧
        isMixed (segments.map Item.ofSegment) = false ∧
        e = ⟨segments.map Item.ofSegment, span, source⟩ := by
  rw [ofBody]
  cases hs : Segment.ofLexemes offset (Lexeme.read closer? body) with
  | error failure => simp [bind, Except.bind]
  | ok segments =>
    simp only [bind, Except.bind]
    by_cases hm : isMixed (segments.map Item.ofSegment) = true
    · simp [refuse, hm]
    · rw [if_neg hm]
      constructor
      · intro h
        exact ⟨segments, rfl, by simpa using hm, (Except.ok.inj h).symm⟩
      · rintro ⟨_, hok, _, rfl⟩
        rw [Except.ok.inj hok]

theorem span_source_of_ofBody {offset : Nat} {body source : Text} {span : Span} {e : Expression}
    (h : ofBody offset body source span = .ok e) : e.span = span ∧ e.source = source := by
  obtain ⟨segments, _, _, rfl⟩ := ofBody_eq_ok_iff.mp h
  exact ⟨rfl, rfl⟩

/-- An expression in braces depends on its own text and on where that stands. -/
theorem read_braced (position : Nat) (inside rest : Text) :
    read ⟨position, '{' :: inside ++ ['}'] ++ rest⟩
        ⟨position, byteSize ('{' :: inside ++ ['}'])⟩ ⟨position + 1, byteSize inside⟩ =
      ofBody (position + 1) inside ('{' :: inside ++ ['}'])
        ⟨position, byteSize ('{' :: inside ++ ['}'])⟩ := by
  refine read_eq_ofBody ?_ ?_
  · have h := Place.slice_append position ['{'] inside (['}'] ++ rest)
    rw [show byteSize ['{'] = 1 from rfl] at h
    simpa using h
  · have h := Place.slice_append position [] ('{' :: inside ++ ['}']) rest
    simpa using h

theorem shrink_braced (position : Nat) (inside : Text) :
    Span.shrink ⟨position, byteSize ('{' :: inside ++ ['}'])⟩ 1 =
      .ok ⟨position + 1, byteSize inside⟩ := by
  have hsize : byteSize ('{' :: inside ++ ['}']) = byteSize inside + 2 := by
    rw [byteSize_append, byteSize_cons, show byteSize ['}'] = 1 from rfl,
      show '{'.utf8Size = 1 from rfl]
    omega
  rw [hsize, Span.shrink, if_pos (by simp)]
  simp

def ofGroup (position : Nat) (group : Text) : Outcome Expression :=
  ofBody (position + 1) group.tail.dropLast group ⟨position, byteSize group⟩

theorem ofGroup_braced (position : Nat) (inside : Text) :
    ofGroup position ('{' :: inside ++ ['}']) =
      ofBody (position + 1) inside ('{' :: inside ++ ['}'])
        ⟨position, byteSize ('{' :: inside ++ ['}'])⟩ := by
  simp [ofGroup]

theorem isBraced_iff {text : Text} : isBraced text = true ↔ Enclosed '{' '}' text := by
  have hl := Lexeme.lexed_read bracketing_braceCloser? text
  have hs := Lexeme.spell_read braceCloser? text
  constructor
  · intro h
    unfold isBraced at h
    split at h
    next opener group hr =>
      rw [hr] at hl hs
      obtain rfl : group = text := by simpa [Lexeme.text] using hs
      cases hl with
      | last ht => cases ht
      | cons hc _ =>
        cases hc with
        | group hb h =>
          obtain ⟨rfl, rfl⟩ := braceCloser?_eq_some_iff.mp hb
          exact h
    next => cases h
  · intro h
    have hr : Lexeme.read braceCloser? text = [.group '{' text] := by
      refine (Lexeme.read_eq_iff bracketing_braceCloser?).mpr ⟨.cons (.group rfl h) .nil, ?_⟩
      simp [Lexeme.text]
    rw [isBraced, hr]

theorem parse_eq_ofGroup {text : Text} (h : Enclosed '{' '}' text)
    (hs : byteSize text < offsetLimit) : parse text = ofGroup 0 text := by
  obtain ⟨inside, rfl⟩ := h.exists_inside (by decide)
  have hread := read_braced 0 inside []
  rw [List.append_nil] at hread
  rw [ofGroup_braced, ← hread, parse, Span.ofText, if_pos hs]
  simp only [check_ok, bind, Except.bind, if_pos (isBraced_iff.mpr h), shrink_braced]
  rfl

theorem parse_eq_ofBody {text : Text} (h : ¬ Enclosed '{' '}' text)
    (hs : byteSize text < offsetLimit) : parse text = ofBody 0 text text ⟨0, byteSize text⟩ := by
  have hslice := Place.slice_whole text
  rw [← read_eq_ofBody hslice hslice, parse, Span.ofText, if_pos hs]
  simp only [check_ok, bind, Except.bind, pure, Except.pure,
    if_neg (fun hb => h (isBraced_iff.mp hb))]

theorem byteSize_lt_of_parse {text : Text} {e : Expression} (h : parse text = .ok e) :
    byteSize text < offsetLimit := by
  rw [parse, Span.ofText] at h
  by_cases hs : byteSize text < offsetLimit
  · exact hs
  · rw [if_neg hs] at h
    cases h

end Expression

end Stencil
