import Stencil.Proofs.Report.Line
import Stencil.Proofs.SyntaxError
import Stencil.Report

/-!
# The place that a report names

The second row of a report names a file, a line and a column. The name of the file is
known to a reader, and digits end where a mark follows, so whatever the name and the
colours are, the row tells one line and one column. They are those of the character
that has as many characters before it as the span of the error has bytes. So the place
is that of the error just where every character before it has one byte, and it is
missing where the span, in bytes, ends past the characters of the template.
-/

set_option autoImplicit false

namespace Stencil

theorem append_cons_unique {p : Char → Prop} {s s' x x' : Text} {d d' : Char}
    (hs : ∀ c ∈ s, ¬ p c) (hs' : ∀ c ∈ s', ¬ p c) (hd : p d) (hd' : p d')
    (h : s ++ d :: x = s' ++ d' :: x') : s = s' ∧ d :: x = d' :: x' := by
  induction s generalizing s' with
  | nil =>
    cases s' with
    | nil => exact ⟨rfl, h⟩
    | cons c' s' =>
      obtain ⟨rfl, _⟩ := List.cons.inj h
      exact absurd hd (hs' d List.mem_cons_self)
  | cons c s ih =>
    cases s' with
    | nil =>
      obtain ⟨rfl, _⟩ := List.cons.inj h
      exact absurd hd' (hs c List.mem_cons_self)
    | cons c' s' =>
      obtain ⟨rfl, htail⟩ := List.cons.inj h
      obtain ⟨rfl, hrest⟩ := ih (fun a ha => hs a (List.mem_cons_of_mem _ ha))
        (fun a ha => hs' a (List.mem_cons_of_mem _ ha)) htail
      exact ⟨rfl, hrest⟩

theorem decimal_injective : Function.Injective decimal := by
  intro m n h
  rw [decimal, decimal] at h
  rw [← @Nat.ofDigitChars_ten_toDigits m, h, Nat.ofDigitChars_ten_toDigits]

theorem decimal_append_unique {m n : Nat} {d d' : Char} {x x' : Text} (hd : ¬ d.isDigit)
    (hd' : ¬ d'.isDigit) (h : decimal m ++ d :: x = decimal n ++ d' :: x') :
    m = n ∧ d :: x = d' :: x' := by
  have hdigits : ∀ k, ∀ c ∈ decimal k, ¬ ¬ c.isDigit :=
    fun k c hc hnot => hnot (Nat.isDigit_of_mem_toDigits (by decide) (by decide) hc)
  obtain ⟨hdecimal, hrest⟩ := append_cons_unique (hdigits m) (hdigits n) hd hd' h
  exact ⟨decimal_injective hdecimal, hrest⟩

theorem Palette.code_eq_some {palette : Palette} {tone : Tone} {code : Text}
    (h : palette.code tone = some code) : tone.code = some code := by
  cases palette with
  | none => cases h
  | labels =>
    rw [Palette.code] at h
    split at h
    · exact h
    · cases h
  | full => exact h

theorem newline_notMem_paint {palette : Palette} {row : Row}
    (h : ∀ piece ∈ row, '\n' ∉ piece.text) : '\n' ∉ row.paint palette := by
  have hcode : ∀ (tone : Tone) code, tone.code = some code → '\n' ∉ code := by
    intro tone code hcode
    cases tone <;> cases hcode <;> decide
  have hpiece : ∀ piece ∈ row, '\n' ∉ piece.paint palette := by
    intro piece hpiece
    unfold Piece.paint
    split
    next code hsome => simpa [hcode _ _ (Palette.code_eq_some hsome)] using h piece hpiece
    next => exact h piece hpiece
  simpa [Row.paint] using hpiece

@[simp] theorem paint_plain (palette : Palette) (t : Text) : (plain t).paint palette = t := by
  cases palette <;> rfl

theorem byteSize_eq_length_iff {t : Text} : byteSize t = t.length ↔ ∀ c ∈ t, c.utf8Size = 1 := by
  induction t with
  | nil => simp
  | cons c t ih =>
    have hc := c.utf8Size_pos
    have hle := length_le_byteSize t
    rw [byteSize_cons, List.length_cons, List.forall_mem_cons, ← ih]
    omega

namespace Report

def locationRow (margin : Nat) (filename : Text) (line column : Nat) : Row :=
  [plain (Label.spaces margin), ⟨.frame, ['╭']⟩, ⟨.frame, ['─']⟩, ⟨.frame, ['[']⟩,
    plain (' ' :: filename ++ ':' :: decimal line ++ ':' :: decimal column ++ [' ']),
    ⟨.frame, [']']⟩]

def Places (palette : Palette) (report filename : Text) (line column : Nat) : Prop :=
  ∃ title margin rest, '\n' ∉ title ∧ report =
    title ++ '\n' :: ((locationRow margin filename line column).paint palette ++ '\n' :: rest)

theorem exists_paint_locationRow (palette : Palette) (filename : Text) :
    ∃ d opening closing, d ≠ ' ' ∧ ∀ margin line column,
      (locationRow margin filename line column).paint palette = Label.spaces margin
        ++ d :: (opening ++ ':' :: (decimal line ++ ':' :: (decimal column ++ ' ' :: closing))) := by
  have hframe : ∃ d x, d ≠ ' ' ∧ Piece.paint palette ⟨.frame, ['╭']⟩ = d :: x := by
    cases palette <;> exact ⟨_, _, by decide, rfl⟩
  obtain ⟨d, x, hd, hframe⟩ := hframe
  refine ⟨d, x ++ Piece.paint palette ⟨.frame, ['─']⟩ ++ Piece.paint palette ⟨.frame, ['[']⟩
    ++ ' ' :: filename, Piece.paint palette ⟨.frame, [']']⟩, hd, ?_⟩
  intro margin line column
  simp [locationRow, Row.paint, hframe]

/-- A report names one line and one column of a file. -/
theorem Places.unique {palette : Palette} {report filename : Text}
    {line column line' column' : Nat} (h : Places palette report filename line column)
    (h' : Places palette report filename line' column') : line = line' ∧ column = column' := by
  obtain ⟨title, margin, rest, htitle, hreport⟩ := h
  obtain ⟨title', margin', rest', htitle', hreport'⟩ := h'
  obtain ⟨d, opening, closing, hd, hpaint⟩ := exists_paint_locationRow palette filename
  have hspaces : ∀ n, ∀ c ∈ Label.spaces n, ¬ c ≠ ' ' :=
    fun n c hc hne => hne (List.eq_of_mem_replicate hc)
  rw [hreport] at hreport'
  obtain ⟨_, hrow⟩ := append_cons_unique (p := (· = '\n')) (List.forall_mem_ne'.mpr htitle)
    (List.forall_mem_ne'.mpr htitle') rfl rfl hreport'
  rw [hpaint, hpaint] at hrow
  simp only [List.cons.injEq, true_and, List.append_assoc, List.cons_append] at hrow
  obtain ⟨_, hplace⟩ := append_cons_unique (hspaces margin) (hspaces margin') hd hd hrow
  have hnumbers := (List.cons.inj (List.append_cancel_left (List.cons.inj hplace).2)).2
  obtain ⟨rfl, hcolumn⟩ := decimal_append_unique (by decide) (by decide) hnumbers
  obtain ⟨rfl, _⟩ := decimal_append_unique (by decide) (by decide) (List.cons.inj hcolumn).2
  exact ⟨rfl, rfl⟩

theorem newline_notMem_titleRow {error : SyntaxError} (palette : Palette)
    (h : ∀ opener, error.cause = .unmatchedPair opener → ∃ closer, closer? opener = some closer) :
    '\n' ∉ (titleRow error.cause.notice).paint palette := by
  have htitle : '\n' ∉ error.cause.notice.title := by
    cases hcause : error.cause with
    | unmatchedBrace => decide
    | mixedItems =>
      show '\n' ∉ "illegal mix of plain list and hashes".toList
      decide
    | unmatchedPair opener =>
      obtain ⟨closer, hcloser⟩ := h opener hcause
      show '\n' ∉ "unclosed '".toList ++ opener :: "' inside expression".toList
      rw [List.mem_append, List.mem_cons, not_or, not_or]
      refine ⟨by decide, ?_, by decide⟩
      rintro rfl
      cases hcloser
  apply newline_notMem_paint
  intro piece hpiece
  rcases List.mem_cons.mp hpiece with rfl | hpiece
  · decide
  · rw [List.mem_singleton.mp hpiece]
    simpa [plain] using htitle

section Row

variable {error : SyntaxError} {template : Text} {palette : Palette} (filename : Text)
  (htitle : '\n' ∉ (titleRow error.cause.notice).paint palette)
  (hlt : error.span.start < error.span.stop)

include htitle hlt

/-- The place is looked up by the start of the span, as a count of characters. -/
theorem exists_places (hle : error.span.stop ≤ template.length + 1) :
    ∃ line, lineAt? template error.span.start = some line ∧
      Places palette (render palette error filename template) filename line.number
        (error.span.start - line.start + 1) := by
  obtain ⟨label, hlabel, hfirst, hstart⟩ :=
    Label.exists_on? hlt hle error.cause.notice.label
  refine ⟨label.first, hfirst, (titleRow error.cause.notice).paint palette, label.margin + 2,
    paintRows palette (openingRow label :: label.draw ++ spacerRow label
      :: helpRows error.cause.notice label ++ [closingRow label]), htitle, ?_⟩
  have hcolumn : error.span.start - label.first.start + 1 = label.column := by
    rw [Label.column, hstart]
  rw [hcolumn]
  simp only [render, rows, hlabel, paintRows, List.flatMap_cons, List.cons_append,
    List.append_assoc]
  rfl

theorem not_places (hle : template.length + 1 < error.span.stop) (line column : Nat) :
    ¬ Places palette (render palette error filename template) filename line column := by
  rintro ⟨title, margin, rest, htitle', hreport⟩
  have hrender : render palette error filename template =
      (titleRow error.cause.notice).paint palette ++ '\n' :: [] := by
    simp [render, rows, Label.on?_eq_none hlt hle, paintRows]
  rw [hrender] at hreport
  obtain ⟨_, hrow⟩ := append_cons_unique (p := (· = '\n')) (List.forall_mem_ne'.mpr htitle)
    (List.forall_mem_ne'.mpr htitle') rfl rfl hreport
  simp at hrow

/-- A character is named as the place just where it has as many characters before it as the span
has bytes before it. -/
theorem places_iff (hle : error.span.stop ≤ template.length + 1) {before : Text}
    {line column : Nat} (hl : Located template before line column) :
    Places palette (render palette error filename template) filename line column ↔
      error.span.start = before.length := by
  obtain ⟨found, hfound, hplaces⟩ := exists_places filename htitle hlt hle
  obtain ⟨line', hline', rfl, rfl⟩ := hl.lineAt?
  constructor
  · intro h
    obtain ⟨hnumber, hcolumn⟩ := hplaces.unique h
    exact eq_of_lineAt? hfound hline' hnumber (by omega)
  · intro h
    rw [h] at hfound hplaces
    obtain rfl := Option.some.inj (hfound.symm.trans hline')
    exact hplaces

end Row

theorem exists_culprit {template : Text} {error : SyntaxError}
    (h : tokenize template = .error (.refused error)) :
    ∃ before c named after, error.cause.named = c :: named ∧
      template = before ++ error.cause.named ++ after ∧
      error.span = ⟨byteSize before, byteSize error.cause.named⟩ := by
  obtain ⟨hpoints, _⟩ := SyntaxError.points_of_refused h
  obtain ⟨before, after, htemplate, hspan⟩ := Span.slice_eq_ok_iff.mp hpoints.slice
  have hfilled := hpoints.filled
  cases hnamed : error.cause.named with
  | nil =>
    rw [hspan, hnamed] at hfilled
    cases hfilled
  | cons c named =>
    rw [hnamed] at htemplate hspan
    exact ⟨before, c, named, after, rfl, htemplate, hspan⟩

theorem newline_notMem_title {template : Text} {error : SyntaxError}
    (h : tokenize template = .error (.refused error)) (palette : Palette) :
    '\n' ∉ (titleRow error.cause.notice).paint palette := by
  obtain ⟨_, hunbalanced⟩ := SyntaxError.points_of_refused h
  apply newline_notMem_titleRow
  intro opener hcause
  obtain ⟨_, closer, _, hcloser, _⟩ := hunbalanced opener hcause
  exact ⟨closer, hcloser⟩

/-- The report on a template that is refused names a place if the span of the error ends, in bytes,
in the template or one past its characters. The place is that of what is refused just where
all characters before it have one byte. -/
theorem places_of_tokenize {template : Text} {error : SyntaxError}
    (h : tokenize template = .error (.refused error)) (palette : Palette) (filename : Text) :
    ∃ before after line column, template = before ++ error.cause.named ++ after ∧
      error.span.start = byteSize before ∧ Located template before line column ∧
      ((∃ line' column',
          Places palette (render palette error filename template) filename line' column') ↔
        error.span.stop ≤ template.length + 1) ∧
      (Places palette (render palette error filename template) filename line column ↔
        error.span.stop ≤ template.length + 1 ∧ ∀ c ∈ before, c.utf8Size = 1) := by
  obtain ⟨before, c, named, after, hnamed, htemplate, hspan⟩ := exists_culprit h
  have htitle := newline_notMem_title h palette
  have hstart : error.span.start = byteSize before := by rw [hspan]
  have hlt : error.span.start < error.span.stop := by
    have hc := c.utf8Size_pos
    rw [hspan, hnamed, byteSize_cons]
    show byteSize before < byteSize before + (c.utf8Size + byteSize named)
    omega
  obtain ⟨line, column, hl⟩ : ∃ line column, Located template before line column := by
    rw [htemplate, hnamed, List.append_assoc]
    exact exists_located before c (named ++ after)
  refine ⟨before, after, line, column, htemplate, hstart, hl, ?_, ?_⟩
  · constructor
    · rintro ⟨line', column', hplaces⟩
      by_contra hle
      exact not_places filename htitle hlt (Nat.lt_of_not_le hle) _ _ hplaces
    · intro hle
      obtain ⟨found, _, hplaces⟩ := exists_places filename htitle hlt hle
      exact ⟨_, _, hplaces⟩
  · by_cases hle : error.span.stop ≤ template.length + 1
    · rw [places_iff filename htitle hlt hle hl, hstart, byteSize_eq_length_iff]
      exact (and_iff_right hle).symm
    · constructor
      · intro hplaces
        exact absurd hplaces (not_places filename htitle hlt (Nat.lt_of_not_le hle) _ _)
      · exact fun hbefore => absurd hbefore.1 hle

theorem places_of_tokenize_second_line :
    tokenize "a\r\n \x7bé: x, y\x7d".toList =
      .error (.refused ⟨.mixedItems "\x7bé: x, y\x7d".toList, ⟨4, 10⟩⟩) ∧
    Places .none (render .none ⟨.mixedItems "\x7bé: x, y\x7d".toList, ⟨4, 10⟩⟩ "t".toList
      "a\r\n \x7bé: x, y\x7d".toList) "t".toList 2 2 := by
  have h : tokenize "a\r\n \x7bé: x, y\x7d".toList =
      .error (.refused ⟨.mixedItems "\x7bé: x, y\x7d".toList, ⟨4, 10⟩⟩) := by
    decide +kernel
  obtain ⟨before, after, line, column, htemplate, hstart, hl, _, hplaces⟩ :=
    places_of_tokenize h .none "t".toList
  have hbefore : before = "a\r\n ".toList := by
    have hsplit := splitBytes?_eq_some.mpr ⟨htemplate.trans (List.append_assoc _ _ _), hstart.symm⟩
    have hcut : splitBytes? 4 "a\r\n \x7bé: x, y\x7d".toList =
        some ("a\r\n ".toList, "\x7bé: x, y\x7d".toList) := by
      decide +kernel
    exact (Prod.mk.inj (Option.some.inj (hsplit.symm.trans hcut))).1
  subst hbefore
  have hl' : Located "a\r\n \x7bé: x, y\x7d".toList "a\r\n ".toList 2 2 :=
    ⟨⟨["a\r\n".toList], [' '], '{', "é: x, y\x7d".toList, [], by decide +kernel, rfl, rfl, rfl⟩⟩
  obtain ⟨rfl, rfl⟩ := hl.unique hl'
  exact ⟨h, hplaces.mpr ⟨by decide +kernel, byteSize_eq_length_iff.mp (by decide +kernel)⟩⟩

/-- After a character of two bytes the report names the column past the brace. -/
theorem misplaced_after_two_bytes :
    tokenize "é\x7b".toList = .error (.refused ⟨.unmatchedBrace, ⟨2, 1⟩⟩) ∧
    byteSize ['é'] = 2 ∧ Located "é\x7b".toList ['é'] 1 2 ∧
    Places .none (render .none ⟨.unmatchedBrace, ⟨2, 1⟩⟩ "t".toList "é\x7b".toList) "t".toList 1 3 ∧
    ¬ Places .none (render .none ⟨.unmatchedBrace, ⟨2, 1⟩⟩ "t".toList "é\x7b".toList)
      "t".toList 1 2 := by
  have hl : Located "é\x7b".toList ['é'] 1 2 :=
    ⟨⟨[], ['é'], '{', [], [], by decide +kernel, rfl, rfl, rfl⟩⟩
  have hreport : render .none ⟨.unmatchedBrace, ⟨2, 1⟩⟩ "t".toList "é\x7b".toList =
      "Error: unclosed expression".toList ++ '\n' ::
        ((locationRow 3 "t".toList 1 3).paint .none ++ '\n' ::
          "   │\n   │ \n   │ \n   │ Help: add a closing '\x7d'\n───╯\n".toList) := by
    decide +kernel
  have hplaces : Places .none (render .none ⟨.unmatchedBrace, ⟨2, 1⟩⟩ "t".toList "é\x7b".toList)
      "t".toList 1 3 :=
    ⟨_, _, _, by decide +kernel, hreport⟩
  refine ⟨by decide +kernel, rfl, hl, hplaces, ?_⟩
  intro h
  cases (hplaces.unique h).2

end Report

end Stencil
