import Mathlib.Algebra.GroupWithZero.Nat
import Stencil.Proofs.Report

/-!
# The text of a row

Without colours a row is a text. Here the rows of a label are given as texts: what a line
looks like when it is shown, and the cells under it. A character that is not blank is
shown as itself, so a line without its blanks is shown as it is.
-/

set_option autoImplicit false

namespace Stencil

namespace Line

def expand (index : Nat) : Text → Text
  | [] => []
  | c :: t => showChar index c ++ expand (index + 1) t

def widthsFrom (index : Nat) : Text → List Nat
  | [] => []
  | c :: t => charWidth index c :: widthsFrom (index + 1) t

theorem expand_append (index : Nat) (s t : Text) :
    expand index (s ++ t) = expand index s ++ expand (index + s.length) t := by
  induction s generalizing index with
  | nil => rfl
  | cons c s ih =>
    rw [List.cons_append, expand, expand, ih, List.append_assoc, List.length_cons,
      Nat.add_right_comm, Nat.add_assoc]

theorem widthsFrom_append (index : Nat) (s t : Text) :
    widthsFrom index (s ++ t) = widthsFrom index s ++ widthsFrom (index + s.length) t := by
  induction s generalizing index with
  | nil => rfl
  | cons c s ih =>
    rw [List.cons_append, widthsFrom, widthsFrom, ih, List.cons_append, List.length_cons,
      Nat.add_right_comm, Nat.add_assoc]

theorem length_widthsFrom (index : Nat) (t : Text) : (widthsFrom index t).length = t.length := by
  induction t generalizing index with
  | nil => rfl
  | cons c t ih => rw [widthsFrom, List.length_cons, List.length_cons, ih]

theorem widths_eq (line : Line) (count : Nat) : line.widths count =
    (widthsFrom 0 line.shown ++ List.replicate (count - line.shown.length) 1).take count := by
  have hwidths (t : Text) (index : Nat) :
      (t.zipIdx index).map (fun p => charWidth p.2 p.1) = widthsFrom index t := by
    induction t generalizing index with
    | nil => rfl
    | cons c t ih => rw [List.zipIdx_cons, List.map_cons, ih, widthsFrom]
  have hlength := length_widthsFrom 0 line.shown
  rw [← hwidths] at hlength ⊢
  rw [← hlength]
  rfl

theorem showChar_of_blank {c : Char} (h : isBlank c = true) (index : Nat) :
    ∃ n, showChar index c = List.replicate n ' ' := by
  by_cases hc : c = '\t'
  · exact ⟨tabWidth index, if_pos hc⟩
  · exact ⟨1, by rw [showChar, if_neg hc, if_pos h]; rfl⟩

theorem showChar_of_not_blank {c : Char} (h : isBlank c = false) (index : Nat) :
    showChar index c = [c] := by
  have hc : c ≠ '\t' := by
    rintro rfl
    exact absurd h (by decide)
  simp [showChar, hc, h]

theorem charWidth_of_not_blank {c : Char} (h : isBlank c = false) (index : Nat) :
    charWidth index c = cellWidth c := by
  have hc : c ≠ '\t' := by
    rintro rfl
    exact absurd h (by decide)
  simp [charWidth, hc, h]

theorem showChar_ne_nil (index : Nat) (c : Char) : showChar index c ≠ [] := by
  unfold showChar
  split
  · rw [Ne, List.replicate_eq_nil_iff, tabWidth]
    omega
  · split <;> exact List.cons_ne_nil _ _

theorem mem_expand {index : Nat} {t : Text} {d : Char} (h : d ∈ expand index t) :
    d = ' ' ∨ d ∈ t ∧ isBlank d = false := by
  induction t generalizing index with
  | nil => cases h
  | cons c t ih =>
    rcases List.mem_append.mp h with h | h
    · cases hc : isBlank c with
      | true =>
        obtain ⟨n, hn⟩ := showChar_of_blank hc index
        rw [hn] at h
        exact .inl (List.eq_of_mem_replicate h)
      | false =>
        rw [showChar_of_not_blank hc, List.mem_singleton] at h
        exact .inr ⟨h ▸ List.mem_cons_self, h ▸ hc⟩
    · exact (ih h).imp_right fun hd => ⟨List.mem_cons_of_mem c hd.1, hd.2⟩

/-- A line is shown with all that is not blank, in order. -/
theorem filter_expand (index : Nat) (t : Text) :
    (expand index t).filter (fun c => !isBlank c) = t.filter (fun c => !isBlank c) := by
  induction t generalizing index with
  | nil => rfl
  | cons c t ih =>
    rw [expand, List.filter_append, ih]
    cases hc : isBlank c with
    | true =>
      obtain ⟨n, hn⟩ := showChar_of_blank hc index
      have hspace : isBlank ' ' = true := by decide
      rw [hn, List.filter_cons_of_neg (by simp [hc]), List.filter_eq_nil_iff.mpr]
      · rfl
      · intro d hd
        rw [List.eq_of_mem_replicate hd, hspace]
        decide
    | false =>
      rw [showChar_of_not_blank hc, List.filter_cons_of_pos (by simp [hc]),
        List.filter_cons_of_pos (by simp [hc])]
      rfl

/-- Where each character fills one cell, a text is shown in as many characters as cells. -/
theorem length_expand {t : Text} (h : ∀ c ∈ t, cellWidth c = 1) (index : Nat) :
    (expand index t).length = (widthsFrom index t).sum := by
  induction t generalizing index with
  | nil => rfl
  | cons c t ih =>
    obtain ⟨hc, ht⟩ := List.forall_mem_cons.mp h
    have hchar : (showChar index c).length = charWidth index c := by
      unfold showChar charWidth
      split
      · exact List.length_replicate
      · split
        · rfl
        · exact hc.symm
    rw [expand, widthsFrom, List.length_append, List.sum_cons, ih ht, hchar]

end Line

theorem isDigit_of_mem_decimal {n : Nat} {d : Char} (h : d ∈ decimal n) : d.isDigit = true :=
  Nat.isDigit_of_mem_toDigits (by decide) (by decide) h

theorem paint_scatter (tone : Tone) (t : Text) : Row.paint .none (scatter tone t) = t := by
  induction t with
  | nil => rfl
  | cons c t ih => exact congrArg (c :: ·) ih

namespace Label

theorem paint_gutter (label : Label) (edge : Char) : Row.paint .none (label.gutter edge) =
    ' ' :: (spaces (label.margin + 1) ++ [edge, ' ']) := by
  simp [gutter, plain, Row.paint_none]

theorem paint_lineMargin (label : Label) (line : Line) :
    Row.paint .none (label.lineMargin line) =
      ' ' :: (spaces (label.margin - (decimal line.number).length) ++ decimal line.number
        ++ [' ', '│', ' ']) := by
  simp [lineMargin, plain, Row.paint_none]

theorem paint_lineText (label : Label) (line : Line) :
    Row.paint .none (label.lineText line) = Line.expand 0 line.shown := by
  have hshown (tone : Nat → Tone) (t : Text) (index : Nat) :
      Row.paint .none ((t.zipIdx index).flatMap fun p => scatter (tone p.2) (Line.showChar p.2 p.1))
        = Line.expand index t := by
    induction t generalizing index with
    | nil => rfl
    | cons c t ih =>
      rw [List.zipIdx_cons, List.flatMap_cons, Row.paint_append, ih, paint_scatter, Line.expand]
  exact hshown (fun i => if label.covers (line.start + i) then .label else .context) line.shown 0

def cellText (width : Nat) : Option (Char × Char) → Text
  | some (head, fill) => cell width head fill
  | none => spaces width

def cellTexts (draw : Nat → Option (Char × Char)) (index : Nat) : List Nat → Text
  | [] => []
  | width :: widths => cellText width (draw index) ++ cellTexts draw (index + 1) widths

theorem paint_cells (line : Line) (count : Nat) (draw : Nat → Option (Char × Char)) :
    Row.paint .none (cells line count draw) = cellTexts draw 0 (line.widths count) := by
  rw [cells]
  generalize line.widths count = widths
  generalize 0 = index
  induction widths generalizing index with
  | nil => rfl
  | cons width widths ih =>
    rw [List.zipIdx_cons, List.flatMap_cons, Row.paint_append, ih, cellTexts]
    congr 1
    cases hdraw : draw index with
    | none => simp [hdraw, cellText, plain, Row.paint_none]
    | some pair => simp [hdraw, cellText, paint_scatter]

theorem cellTexts_append (draw : Nat → Option (Char × Char)) (index : Nat) (s t : List Nat) :
    cellTexts draw index (s ++ t) = cellTexts draw index s ++ cellTexts draw (index + s.length) t := by
  induction s generalizing index with
  | nil => rfl
  | cons width s ih =>
    rw [List.cons_append, cellTexts, cellTexts, ih, List.append_assoc, List.length_cons,
      Nat.add_right_comm, Nat.add_assoc]

theorem cellTexts_blank {draw : Nat → Option (Char × Char)} {index : Nat} {widths : List Nat}
    (h : ∀ i, i < widths.length → draw (index + i) = none) :
    cellTexts draw index widths = spaces widths.sum := by
  induction widths generalizing index with
  | nil => rfl
  | cons width widths ih =>
    have hfirst : draw index = none := h 0 (by simp)
    have hrest : ∀ i, i < widths.length → draw (index + 1 + i) = none := by
      intro i hi
      rw [Nat.add_assoc, Nat.add_comm 1]
      exact h (i + 1) (by simpa using hi)
    rw [cellTexts, hfirst, ih hrest, List.sum_cons]
    exact List.replicate_append_replicate

theorem mem_cellTexts {draw : Nat → Option (Char × Char)} {index : Nat} {widths : List Nat} {d : Char}
    (h : d ∈ cellTexts draw index widths) :
    d = ' ' ∨ ∃ i, ∃ pair ∈ draw i, d = pair.1 ∨ d = pair.2 := by
  induction widths generalizing index with
  | nil => cases h
  | cons width widths ih =>
    rcases List.mem_append.mp h with h | h
    · cases hdraw : draw index with
      | none =>
        rw [hdraw] at h
        exact .inl (List.eq_of_mem_replicate h)
      | some pair =>
        rw [hdraw] at h
        rcases List.mem_cons.mp (List.mem_of_mem_take h) with h | h
        · exact .inr ⟨index, pair, hdraw, .inl h⟩
        · exact .inr ⟨index, pair, hdraw, .inr (List.eq_of_mem_replicate h)⟩
    · exact ih h

end Label

end Stencil
