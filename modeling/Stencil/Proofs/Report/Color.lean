import Stencil.Proofs.Report.Rows

/-!
# The colours of a report

Colours add sequences to a report and nothing else: without them the report is the one
that was painted without colours. A palette for the label alone still colours it, so the
report has a sequence wherever a label is drawn, which is on every range that lies in the
source.
-/

set_option autoImplicit false

namespace Stencil

def uncolor : Bool → Text → Text
  | _, [] => []
  | true, c :: rest => uncolor (c != 'm') rest
  | false, c :: rest => if c = '\x1b' then uncolor true rest else c :: uncolor false rest

def withoutColors (t : Text) : Text := uncolor false t

section

variable {palette : Palette} {piece : Piece} {row : Row} {rows : List Row}

theorem uncolor_append {s : Text} (hs : '\x1b' ∉ s) (t : Text) :
    uncolor false (s ++ t) = s ++ uncolor false t := by
  induction s with
  | nil => rfl
  | cons c s ih =>
    obtain ⟨hc, hs⟩ := List.ne_and_not_mem_of_not_mem_cons hs
    rw [List.cons_append, uncolor, if_neg hc.symm, ih hs, List.cons_append]

theorem uncolor_code {code : Text} (hcode : 'm' ∉ code) (t : Text) :
    uncolor true (code ++ 'm' :: t) = uncolor false t := by
  induction code with
  | nil => rfl
  | cons c code ih =>
    obtain ⟨hc, hcode⟩ := List.ne_and_not_mem_of_not_mem_cons hcode
    rw [List.cons_append, uncolor, bne_iff_ne.mpr hc.symm, ih hcode]

theorem uncolor_escape {code : Text} (hcode : 'm' ∉ code) (t : Text) :
    uncolor false ('\x1b' :: '[' :: code ++ 'm' :: t) = uncolor false t :=
  uncolor_code hcode t

theorem Tone.code_ends {tone : Tone} {code : Text} (h : tone.code = some code) : 'm' ∉ code := by
  cases tone <;> cases h <;> decide

theorem uncolor_paint (palette : Palette) (h : '\x1b' ∉ piece.text) (t : Text) :
    uncolor false (piece.paint palette ++ t) = piece.text ++ uncolor false t := by
  unfold Piece.paint
  split
  next code hcode =>
    have hends := Tone.code_ends (Palette.code_eq_some hcode)
    have hreset : 'm' ∉ ['0'] := by decide
    have hclose : "\x1b[0m".toList ++ t = '\x1b' :: '[' :: ['0'] ++ 'm' :: t := rfl
    calc uncolor false ('\x1b' :: '[' :: code ++ 'm' :: piece.text ++ "\x1b[0m".toList ++ t)
        = uncolor false ('\x1b' :: '[' :: code ++ 'm' ::
            (piece.text ++ ("\x1b[0m".toList ++ t))) := by simp
      _ = uncolor false (piece.text ++ ("\x1b[0m".toList ++ t)) := uncolor_escape hends _
      _ = piece.text ++ uncolor false ("\x1b[0m".toList ++ t) := uncolor_append h _
      _ = piece.text ++ uncolor false t := by rw [hclose, uncolor_escape hreset]
  next => exact uncolor_append h t

theorem uncolor_paint_row (palette : Palette) (h : ∀ piece ∈ row, '\x1b' ∉ piece.text) (t : Text) :
    uncolor false (row.paint palette ++ t) = row.paint .none ++ uncolor false t := by
  induction row with
  | nil => rfl
  | cons piece row ih =>
    obtain ⟨hpiece, hrow⟩ := List.forall_mem_cons.mp h
    have ih := ih hrow
    rw [Row.paint, List.flatMap_cons, List.append_assoc, uncolor_paint palette hpiece]
    rw [Row.paint] at ih
    rw [ih, ← List.append_assoc]
    rfl

/-- Without their colours rows are as if they were painted with none. -/
theorem withoutColors_paintRows (palette : Palette)
    (h : ∀ row ∈ rows, ∀ piece ∈ row, '\x1b' ∉ piece.text) :
    withoutColors (paintRows palette rows) = paintRows .none rows := by
  induction rows with
  | nil => rfl
  | cons row rows ih =>
    obtain ⟨hrow, hrows⟩ := List.forall_mem_cons.mp h
    have ih := ih hrows
    simp only [withoutColors, paintRows, List.flatMap_cons, List.append_assoc] at ih ⊢
    rw [uncolor_paint_row palette hrow, List.singleton_append, List.singleton_append, uncolor,
      if_neg (by decide), ih]

/-- A palette for the label alone colours the pieces of the label. -/
theorem escape_mem_paintRows_labels_iff
    (h : ∀ row ∈ rows, ∀ piece ∈ row, '\x1b' ∉ piece.text) :
    '\x1b' ∈ paintRows .labels rows ↔ ∃ row ∈ rows, ∃ piece ∈ row, piece.tone = .label := by
  have hpiece : ∀ row ∈ rows, ∀ piece ∈ row,
      ('\x1b' ∈ piece.paint .labels ↔ piece.tone = .label) := by
    intro row hrow piece hpiece
    have htext := h row hrow piece hpiece
    by_cases htone : piece.tone = .label
    · simp [Piece.paint, Palette.code, htone, Tone.code]
    · simp [Piece.paint, Palette.code, htone, htext]
  simp only [paintRows, Row.paint, List.mem_flatMap, List.mem_append, List.mem_singleton]
  constructor
  · rintro ⟨row, hrow, ⟨piece, hmem, hescape⟩ | hescape⟩
    · exact ⟨row, hrow, piece, hmem, (hpiece row hrow piece hmem).mp hescape⟩
    · cases hescape
  · rintro ⟨row, hrow, piece, hmem, htone⟩
    exact ⟨row, hrow, .inl ⟨piece, hmem, (hpiece row hrow piece hmem).mpr htone⟩⟩

end

theorem escape_notMem_append {s t : Row} : '\x1b' ∉ Row.paint .none (s ++ t) ↔
    '\x1b' ∉ Row.paint .none s ∧ '\x1b' ∉ Row.paint .none t := by
  rw [Row.paint_append, List.mem_append, not_or]

namespace Label

theorem escape_notMem_spaces (n : Nat) : '\x1b' ∉ spaces n :=
  fun h => by cases List.eq_of_mem_replicate h

theorem escape_notMem_decimal (n : Nat) : '\x1b' ∉ decimal n :=
  fun h => absurd (isDigit_of_mem_decimal h) (by decide)

theorem escape_notMem_gutter (label : Label) {edge : Char} (h : '\x1b' ≠ edge) :
    '\x1b' ∉ Row.paint .none (label.gutter edge) := by
  rw [paint_gutter]
  simp [escape_notMem_spaces, h]

theorem escape_notMem_lineMargin (label : Label) (line : Line) :
    '\x1b' ∉ Row.paint .none (label.lineMargin line) := by
  rw [paint_lineMargin]
  simp [escape_notMem_spaces, escape_notMem_decimal]

theorem escape_notMem_lineText (label : Label) {line : Line} (h : '\x1b' ∉ line.text) :
    '\x1b' ∉ Row.paint .none (label.lineText line) := by
  rw [paint_lineText]
  intro hmem
  rcases Line.mem_expand hmem with hmem | ⟨hmem, _⟩
  · cases hmem
  · exact h ((trimEnd_isPrefix line.text).subset hmem)

theorem escape_notMem_cells {line : Line} {count : Nat} {draw : Nat → Option (Char × Char)}
    (h : ∀ i, ∀ pair ∈ draw i, '\x1b' ≠ pair.1 ∧ '\x1b' ≠ pair.2) :
    '\x1b' ∉ Row.paint .none (cells line count draw) := by
  rw [paint_cells]
  intro hmem
  rcases mem_cellTexts hmem with hmem | ⟨i, pair, hpair, hmem⟩
  · cases hmem
  · rcases hmem with hmem | hmem
    · exact (h i pair hpair).1 hmem
    · exact (h i pair hpair).2 hmem

theorem escape_notMem_bar (label : Label) : '\x1b' ∉ Row.paint .none label.bar := by
  refine escape_notMem_cells fun i pair hpair => ?_
  dsimp only at hpair
  split at hpair
  · cases hpair
    split <;> decide
  · split at hpair <;> cases hpair
    decide

theorem escape_notMem_arm (label : Label) : '\x1b' ∉ Row.paint .none label.arm := by
  refine escape_notMem_cells fun i pair hpair => ?_
  split at hpair
  · cases hpair
  · split at hpair <;> cases hpair <;> decide

theorem escape_notMem_draw {label : Label} (hfirst : '\x1b' ∉ label.first.text)
    (hlast : '\x1b' ∉ label.last.text) (hmessage : '\x1b' ∉ label.message) :
    ∀ row ∈ label.draw, '\x1b' ∉ Row.paint .none row := by
  have hblank : '\x1b' ∉ Row.paint .none label.blankMargin :=
    escape_notMem_gutter label (by decide)
  have hsaid : '\x1b' ∉ Row.paint .none label.said := by
    simpa [said, Row.paint] using hmessage
  have hspaces : '\x1b' ∉ Row.paint .none [plain (spaces 3)] := by decide
  rw [draw]
  split
  · rw [drawLine]
    split
    · simpa using hblank
    · simp only [List.forall_mem_cons, escape_notMem_append]
      exact ⟨⟨escape_notMem_lineMargin _ _, escape_notMem_lineText _ hfirst⟩,
        ⟨hblank, escape_notMem_bar _⟩, ⟨⟨hblank, escape_notMem_arm _⟩, hsaid⟩,
        List.forall_mem_nil _⟩
  · -- What the bracket is drawn with in each of its rows.
    have hcorners : '\x1b' ∉ Row.paint .none (scatter .label "╭─▶ ".toList) ∧
        '\x1b' ∉ Row.paint .none (scatter .label ['┆']) ∧
        '\x1b' ∉ Row.paint .none (scatter .label "├─▶ ".toList) ∧
        '\x1b' ∉ Row.paint .none (scatter .label ['│']) ∧
        '\x1b' ∉ Row.paint .none (scatter .label "╰───".toList) := by
      simp only [paint_scatter]
      decide
    obtain ⟨hopen, hleft, hclose, hedge, harm⟩ := hcorners
    have helision : '\x1b' ∉ Row.paint .none label.elision := by
      rw [elision, escape_notMem_append, escape_notMem_append]
      exact ⟨⟨escape_notMem_gutter _ (by decide), hleft⟩, hspaces⟩
    have hnone (count : Nat) : '\x1b' ∉ Row.paint .none (cells label.last count fun _ => none) :=
      escape_notMem_cells fun _ _ hpair => by cases hpair
    have hline (count : Nat) :
        '\x1b' ∉ Row.paint .none (cells label.last count fun _ => some ('─', '─')) :=
      escape_notMem_cells fun _ _ hpair => by cases hpair; decide
    rw [drawLines]
    simp only [List.forall_mem_append, List.forall_mem_cons, escape_notMem_append]
    refine ⟨⟨⟨⟨escape_notMem_lineMargin _ _, hopen⟩, escape_notMem_lineText _ hfirst⟩, ?_⟩, ?_⟩
    · split
      · exact List.forall_mem_singleton.mpr helision
      · exact List.forall_mem_nil _
    · split
      · exact List.forall_mem_nil _
      · simp only [List.forall_mem_cons, escape_notMem_append]
        exact ⟨⟨⟨escape_notMem_lineMargin _ _, hclose⟩, escape_notMem_lineText _ hlast⟩,
          ⟨⟨⟨hblank, hedge⟩, hspaces⟩, hnone _⟩, ⟨⟨⟨hblank, harm⟩, hline _⟩, hsaid⟩,
          List.forall_mem_nil _⟩

theorem of_on? {source message : Text} {start stop : Nat} {label : Label}
    (h : on? source start stop message = some label) :
    lineAt? source start = some label.first ∧
      lineAt? source (if start < stop then stop - 1 else start) = some label.last ∧
      label.start = start ∧ label.stop = stop ∧ label.message = message := by
  by_cases hlt : start < stop
  · simp only [on?, if_pos hlt, Option.bind_eq_bind, Option.bind_eq_some_iff, Option.pure_def,
      Option.some.injEq] at h
    obtain ⟨first, hfirst, last, hlast, rfl⟩ := h
    exact ⟨hfirst, by rwa [if_pos hlt], rfl, rfl, rfl⟩
  · simp only [on?, if_neg hlt, Option.bind_eq_bind, Option.bind_eq_some_iff, Option.pure_def,
      Option.bind_some, Option.some.injEq] at h
    obtain ⟨first, hfirst, rfl⟩ := h
    exact ⟨hfirst, by rwa [if_neg hlt], rfl, rfl, rfl⟩

theorem exists_piece_of_cells {line : Line} {count i : Nat} {draw : Nat → Option (Char × Char)}
    {pair : Char × Char} (hi : i < count) (hshown : line.shown.length ≤ i)
    (hdraw : draw i = some pair) : ∃ piece ∈ cells line count draw, piece.tone = .label := by
  have hwidths : (line.widths count)[i]? = some 1 := by
    have hlength := Line.length_widthsFrom 0 line.shown
    rw [Line.widths_eq, List.getElem?_take_of_lt hi, List.getElem?_append_right (by omega),
      List.getElem?_replicate, if_pos (by omega)]
  refine ⟨⟨.label, [pair.1]⟩, ?_, rfl⟩
  rw [cells, List.mem_flatMap]
  refine ⟨(1, i), List.mk_mem_zipIdx_iff_getElem?.mpr hwidths, ?_⟩
  simp [hdraw, scatter, cell]

theorem exists_piece_of_line {label : Label} (hstart : label.first.start ≤ label.start)
    (hlt : label.start < label.stop) :
    ∃ piece ∈ label.lineText label.first ++ label.bar, piece.tone = .label := by
  obtain ⟨i, hi⟩ : ∃ i, label.start = label.first.start + i := Nat.exists_eq_add_of_le hstart
  have hcovers : label.covers (label.first.start + i) = true := by
    simp only [covers, Bool.and_eq_true, decide_eq_true_eq]
    omega
  by_cases hshown : i < label.first.shown.length
  · obtain ⟨d, hd⟩ := List.exists_mem_of_ne_nil _ (Line.showChar_ne_nil i label.first.shown[i])
    refine ⟨⟨.label, [d]⟩, List.mem_append_left _ ?_, rfl⟩
    rw [lineText, List.mem_flatMap]
    refine ⟨(label.first.shown[i], i), List.mk_mem_zipIdx_iff_getElem?.mpr
      (List.getElem?_eq_getElem hshown), ?_⟩
    simp only [hcovers, if_true, scatter, List.mem_map]
    exact ⟨d, hd, rfl⟩
  · have hreach : i < label.reach := by
      rw [reach]
      omega
    have hbar : ∃ piece ∈ label.bar, piece.tone = .label := by
      by_cases hmiddle : i = label.middle
      · exact exists_piece_of_cells hreach (Nat.le_of_not_lt hshown) (if_pos hmiddle)
      · exact exists_piece_of_cells hreach (Nat.le_of_not_lt hshown)
          ((if_neg hmiddle).trans (if_pos hcovers))
    obtain ⟨piece, hpiece, htone⟩ := hbar
    exact ⟨piece, List.mem_append_right _ hpiece, htone⟩

/-- A label is drawn, unless its range is on one line and leaves it. -/
theorem exists_piece_of_draw_iff {label : Label} (hstart : label.first.start ≤ label.start)
    (hlt : label.start < label.stop) :
    (∃ row ∈ label.draw, ∃ piece ∈ row, piece.tone = .label) ↔
      (label.first.number = label.last.number → label.stop ≤ label.first.stop) := by
  by_cases hnumber : label.first.number = label.last.number
  · rw [draw, if_pos hnumber, drawLine]
    by_cases hcut : label.first.stop < label.stop
    · rw [if_pos hcut]
      simp [hnumber, Nat.not_le_of_lt hcut, blankMargin, gutter, plain]
    · rw [if_neg hcut]
      refine iff_of_true ?_ fun _ => Nat.le_of_not_lt hcut
      obtain ⟨piece, hpiece, htone⟩ := exists_piece_of_line hstart hlt
      rcases List.mem_append.mp hpiece with hpiece | hpiece
      · exact ⟨_, List.mem_cons_self, piece, List.mem_append_right _ hpiece, htone⟩
      · exact ⟨_, List.mem_cons_of_mem _ List.mem_cons_self, piece,
          List.mem_append_right _ hpiece, htone⟩
  · rw [draw, if_neg hnumber, drawLines]
    refine iff_of_true ⟨_, List.mem_cons_self, ⟨.label, ['╭']⟩, ?_, rfl⟩
      fun h => absurd h hnumber
    rw [List.mem_append, List.mem_append]
    exact .inl (.inr (by decide))

end Label

theorem Cause.escape_notMem_notice {cause : Cause} (h : cause ≠ .unmatchedPair '\x1b') :
    '\x1b' ∉ cause.notice.title ∧ '\x1b' ∉ cause.notice.label ∧ '\x1b' ∉ cause.notice.help := by
  cases cause with
  | unmatchedBrace => exact ⟨by decide, by decide, by decide⟩
  | mixedItems =>
    have htitle : '\x1b' ∉ "illegal mix of plain list and hashes".toList := by decide
    have hlabel : '\x1b' ∉ "some items have keys, some don't".toList := by decide
    have hhelp : '\x1b' ∉ "give every item a `key: ` prefix, or none of them".toList := by decide
    exact ⟨htitle, hlabel, hhelp⟩
  | unmatchedPair opener =>
    have hopener : '\x1b' ≠ opener := by
      rintro rfl
      exact h rfl
    have hcloser : '\x1b' ≠ (closer? opener).getD opener := by
      unfold closer?
      split
      · decide
      · decide
      · decide
      · exact hopener
    have htitle : '\x1b' ∉ "unclosed '".toList ++ opener :: "' inside expression".toList := by
      simp [hopener]
    have hlabel : '\x1b' ∉ '\'' :: opener :: "' opened here".toList := by simp [hopener]
    have hhelp : '\x1b' ∉ "add a closing '".toList ++ (closer? opener).getD opener
        :: "' before the end of the item".toList := by
      simp [hcloser]
    exact ⟨htitle, hlabel, hhelp⟩

theorem mem_of_mem_splitOn {c sep : Char} {t line : Text} (h : line ∈ t.splitOn sep)
    (hc : c ∈ line) : c ∈ t := by
  induction t generalizing line with
  | nil =>
    rw [List.splitOn_nil, List.mem_singleton] at h
    rw [h] at hc
    exact hc
  | cons d t ih =>
    obtain ⟨first, rest, hsplit⟩ := List.exists_cons_of_ne_nil (List.splitOn_ne_nil sep t)
    rw [hsplit] at ih
    rw [List.splitOn_cons_eq_if_modifyHead, hsplit] at h
    have hrest (line : Text) (hline : line ∈ first :: rest) (hc : c ∈ line) : c ∈ d :: t :=
      List.mem_cons_of_mem d (ih hline hc)
    split at h
    · rcases List.mem_cons.mp h with rfl | h
      · cases hc
      · exact hrest line h hc
    · rcases List.mem_cons.mp h with rfl | h
      · rcases List.mem_cons.mp hc with rfl | hc
        · exact List.mem_cons_self
        · exact hrest first List.mem_cons_self hc
      · exact hrest line (List.mem_cons_of_mem _ h) hc

namespace Report

variable {error : SyntaxError} {filename source : Text}

def Labelled (source : Text) (span : Span) : Prop :=
  ∃ first last, lineAt? source span.start = some first ∧
    lineAt? source (span.stop - 1) = some last ∧
    (first.number = last.number → span.stop ≤ first.stop)

theorem labelled_of_stop_le {span : Span} (hlt : span.start < span.stop)
    (hle : span.stop ≤ source.length) : Labelled source span := by
  have hstart : span.start ≤ source.length := by omega
  have hbefore : span.stop - 1 < source.length := by omega
  obtain ⟨first, hfirst⟩ := exists_lineAt? hstart
  obtain ⟨last, hlast⟩ := exists_lineAt? (Nat.le_of_lt hbefore)
  refine ⟨first, last, hfirst, hlast, fun hnumber => ?_⟩
  have heq := line_eq_of_number_eq (mem_linesOf_of_lineAt? hfirst).1
    (mem_linesOf_of_lineAt? hlast).1 hnumber
  have hstop := lt_stop_of_lineAt? hlast hbefore
  rw [heq]
  omega

theorem exists_on?_of_labelled (h : Labelled source error.span)
    (hlt : error.span.start < error.span.stop) (message : Text) :
    ∃ label, Label.on? source error.span.start error.span.stop message = some label := by
  obtain ⟨first, last, hfirst, hlast, _⟩ := h
  refine ⟨⟨source, error.span.start, error.span.stop, message, first, last⟩, ?_⟩
  simp [Label.on?, hfirst, hlast, hlt]

theorem mem_rows {label : Label} {row : Row}
    (hlabel : Label.on? source error.span.start error.span.stop error.cause.notice.label =
      some label) :
    row ∈ rows error filename source ↔
      row = titleRow error.cause.notice ∨ row = placeRow filename label ∨
        row = openingRow label ∨ row ∈ label.draw ∨ row = spacerRow label ∨
        row ∈ helpRows error.cause.notice label ∨ row = closingRow label := by
  simp only [rows, hlabel, List.mem_cons, List.mem_append, List.not_mem_nil, or_false]
  tauto

theorem exists_line_of_mem_helpRows {notice : Notice} {label : Label} {row : Row}
    (h : row ∈ helpRows notice label) :
    ∃ line ∈ notice.help.splitOn '\n', ∃ words,
      (words = [⟨.hint, "Help".toList⟩, plain (':' :: ' ' :: line)] ∨
        words = [plain (Label.spaces 6 ++ line)]) ∧
      row = label.blankMargin ++ label.indent ++ words := by
  unfold helpRows at h
  split at h
  · cases h
  next first rest hlines =>
    rw [hlines]
    rcases List.mem_cons.mp h with rfl | h
    · exact ⟨first, List.mem_cons_self, _, .inl rfl, rfl⟩
    · obtain ⟨line, hline, rfl⟩ := List.mem_map.mp h
      exact ⟨line, List.mem_cons_of_mem _ hline, _, .inr rfl, rfl⟩

theorem tone_ne_of_mem_titleRow (notice : Notice) :
    ∀ piece ∈ titleRow notice, piece.tone ≠ .label := by
  simp [titleRow, plain]

/-- What stands around a label that is on one line is no piece of the label. -/
theorem mem_draw_of_mem_rows {label : Label} {row : Row}
    (hlabel : Label.on? source error.span.start error.span.stop error.cause.notice.label =
      some label) (hindent : label.indent = []) (hrow : row ∈ rows error filename source) :
    row ∈ label.draw ∨ ∀ piece ∈ row, piece.tone ≠ .label := by
  have hmargin : ∀ piece ∈ label.blankMargin ++ label.indent, piece.tone ≠ .label := by
    simp [hindent, Label.blankMargin, Label.gutter, plain]
  rcases (mem_rows hlabel).mp hrow with rfl | rfl | rfl | hdraw | rfl | hhelp | rfl
  · exact .inr (tone_ne_of_mem_titleRow _)
  · refine .inr ?_
    simp [placeRow, plain]
  · refine .inr ?_
    simp [openingRow, plain]
  · exact .inl hdraw
  · exact .inr hmargin
  · obtain ⟨line, _, words, hwords, rfl⟩ := exists_line_of_mem_helpRows hhelp
    refine .inr (List.forall_mem_append.mpr ⟨hmargin, ?_⟩)
    rcases hwords with rfl | rfl <;> simp [plain]
  · refine .inr ?_
    simp [closingRow]

theorem exists_piece_of_rows_iff (hlt : error.span.start < error.span.stop) :
    (∃ row ∈ rows error filename source, ∃ piece ∈ row, piece.tone = .label) ↔
      Labelled source error.span := by
  cases hlabel : Label.on? source error.span.start error.span.stop error.cause.notice.label with
  | none =>
    refine iff_of_false ?_ ?_
    · rintro ⟨row, hrow, piece, hpiece, htone⟩
      simp only [rows, hlabel, List.mem_singleton] at hrow
      exact tone_ne_of_mem_titleRow _ piece (hrow ▸ hpiece) htone
    · intro h
      obtain ⟨label, hsome⟩ := exists_on?_of_labelled h hlt error.cause.notice.label
      rw [hlabel] at hsome
      cases hsome
  | some label =>
    obtain ⟨hfirst, hlast, hstart, hstop, _⟩ := Label.of_on? hlabel
    rw [if_pos hlt] at hlast
    have hdrawn : (∃ row ∈ label.draw, ∃ piece ∈ row, piece.tone = .label) ↔
        (label.first.number = label.last.number → error.span.stop ≤ label.first.stop) := by
      rw [← hstop]
      apply Label.exists_piece_of_draw_iff
      · rw [hstart]
        exact (mem_linesOf_of_lineAt? hfirst).2
      · rwa [hstart, hstop]
    constructor
    · rintro ⟨row, hrow, piece, hpiece, htone⟩
      refine ⟨label.first, label.last, hfirst, hlast, fun hnumber => ?_⟩
      have hindent : label.indent = [] := by rw [Label.indent, if_pos hnumber]
      rcases mem_draw_of_mem_rows hlabel hindent hrow with hdraw | hnone
      · exact hdrawn.mp ⟨row, hdraw, piece, hpiece, htone⟩ hnumber
      · exact absurd htone (hnone piece hpiece)
    · rintro ⟨first, last, hfirst', hlast', hdrawn'⟩
      obtain rfl := Option.some.inj (hfirst.symm.trans hfirst')
      obtain rfl := Option.some.inj (hlast.symm.trans hlast')
      obtain ⟨row, hrow, hpiece⟩ := hdrawn.mpr hdrawn'
      exact ⟨row, (mem_rows hlabel).mpr (.inr (.inr (.inr (.inl hrow)))), hpiece⟩

theorem escape_notMem_titleRow {notice : Notice} (h : '\x1b' ∉ notice.title) :
    '\x1b' ∉ Row.paint .none (titleRow notice) := by
  have herror : '\x1b' ∉ "Error:".toList := by decide
  simpa [titleRow, plain, Row.paint_none, herror] using h

theorem escape_notMem_rows (hfilename : '\x1b' ∉ filename) (hsource : '\x1b' ∉ source)
    (hcause : error.cause ≠ .unmatchedPair '\x1b') :
    ∀ row ∈ rows error filename source, '\x1b' ∉ row.paint .none := by
  obtain ⟨htitle, hmessage, hhelp⟩ := Cause.escape_notMem_notice hcause
  have htitle := escape_notMem_titleRow htitle
  intro row hrow
  cases hlabel : Label.on? source error.span.start error.span.stop error.cause.notice.label with
  | none =>
    simp only [rows, hlabel, List.mem_singleton] at hrow
    exact hrow ▸ htitle
  | some label =>
    obtain ⟨hfirst, hlast, _, _, hlabelled⟩ := Label.of_on? hlabel
    have hline {offset : Nat} {line : Line} (h : lineAt? source offset = some line) :
        '\x1b' ∉ line.text :=
      fun hmem => hsource (mem_of_mem_linesOf (mem_linesOf_of_lineAt? h).1 hmem)
    have hmargin : '\x1b' ∉ Row.paint .none (label.blankMargin ++ label.indent) := by
      refine escape_notMem_append.mpr ⟨label.escape_notMem_gutter (by decide), ?_⟩
      unfold Label.indent
      split
      · decide
      · split <;> decide
    rcases (mem_rows hlabel).mp hrow with rfl | rfl | rfl | hdraw | rfl | hmem | rfl
    · exact htitle
    · simp [placeRow, plain, Row.paint_none, Label.escape_notMem_spaces,
        Label.escape_notMem_decimal, hfilename]
    · simp [openingRow, plain, Row.paint_none, Label.escape_notMem_spaces]
    · exact Label.escape_notMem_draw (hline hfirst) (hline hlast) (hlabelled ▸ hmessage) row hdraw
    · exact hmargin
    · obtain ⟨line, hline, words, hwords, rfl⟩ := exists_line_of_mem_helpRows hmem
      have hline : '\x1b' ∉ line := fun hc => hhelp (mem_of_mem_splitOn hline hc)
      refine escape_notMem_append.mpr ⟨hmargin, ?_⟩
      rcases hwords with rfl | rfl <;>
        simpa [Row.paint_none, plain, Label.escape_notMem_spaces] using hline
    · simp [closingRow, Row.paint_none]

theorem fits_of_refused {text : Text} (h : tokenize text = .error (.refused error) ∨
    Expression.parse text = .error (.refused error)) :
    error.cause ≠ .unmatchedPair '\x1b' ∧ error.span.start < error.span.stop := by
  have hpoints : error.Points text ∧ ∀ opener, error.cause = .unmatchedPair opener →
      ∃ body, SyntaxError.Unbalanced text body error.span.start opener := by
    rcases h with h | h
    · exact SyntaxError.points_of_refused h
    · obtain ⟨_, hrefused, hpoints, hunbalanced⟩ :=
        SyntaxError.points_of_parse (Expression.byteSize_lt_of_refused h) h
      obtain rfl := Failure.refused.inj hrefused
      refine ⟨hpoints, fun opener hcause => ?_⟩
      obtain ⟨body, _, hbody⟩ := hunbalanced opener hcause
      exact ⟨body, hbody⟩
  obtain ⟨hpoints, hunbalanced⟩ := hpoints
  constructor
  · intro hcause
    obtain ⟨_, _, _, hcloser, _⟩ := hunbalanced _ hcause
    cases hcloser
  · have hfilled := hpoints.filled
    simp only [Span.isEmpty, beq_eq_false_iff_ne] at hfilled
    rw [Span.stop]
    omega

/-- Where a source and the name of its file have no escape, a report without its colour sequences is
the one painted with no colours, which has no escape. With the colours of the label alone it has an
escape, and is not the report without the sequences, just where a label is drawn, as it is on every
range that lies in the source. -/
theorem labels_keep_color (hfilename : '\x1b' ∉ filename) (hsource : '\x1b' ∉ source)
    (hcause : error.cause ≠ .unmatchedPair '\x1b') :
    '\x1b' ∉ render .none error filename source ∧
    (∀ palette, withoutColors (render palette error filename source) =
      render .none error filename source) ∧
    (error.span.start < error.span.stop →
      ('\x1b' ∈ render .labels error filename source ↔ Labelled source error.span) ∧
      (render .labels error filename source = withoutColors (render .full error filename source) ↔
        ¬ Labelled source error.span) ∧
      (error.span.stop ≤ source.length → Labelled source error.span)) := by
  have hrows := escape_notMem_rows hfilename hsource hcause
  have hpieces : ∀ row ∈ rows error filename source, ∀ piece ∈ row, '\x1b' ∉ piece.text := by
    intro row hrow piece hpiece hmem
    exact hrows row hrow (List.mem_flatMap_of_mem hpiece hmem)
  have hnone : '\x1b' ∉ render .none error filename source := by
    intro hmem
    obtain ⟨row, hrow, hmem⟩ := List.mem_flatMap.mp hmem
    rcases List.mem_append.mp hmem with hmem | hmem
    · exact hrows row hrow hmem
    · cases List.mem_singleton.mp hmem
  have hwithout (palette : Palette) : withoutColors (render palette error filename source) =
      render .none error filename source := withoutColors_paintRows palette hpieces
  refine ⟨hnone, hwithout, fun hlt => ?_⟩
  have hlabels : '\x1b' ∈ render .labels error filename source ↔ Labelled source error.span :=
    (escape_mem_paintRows_labels_iff hpieces).trans (exists_piece_of_rows_iff hlt)
  refine ⟨hlabels, ?_, labelled_of_stop_le hlt⟩
  rw [hwithout .full]
  constructor
  · intro heq hlabelled
    exact hnone (heq ▸ hlabels.mpr hlabelled)
  · intro hlabelled
    have hescape : '\x1b' ∉ render .labels error filename source := hlabels.not.mpr hlabelled
    calc render .labels error filename source
        = withoutColors (render .labels error filename source) := by
          simpa [withoutColors, uncolor] using (uncolor_append hescape []).symm
      _ = render .none error filename source := hwithout .labels

theorem labels_keep_color_across_lines :
    Expression.parse "a: b,\n\tc".toList =
      .error (.refused ⟨.mixedItems "a: b,\n\tc".toList, ⟨0, 8⟩⟩) ∧
    '\x1b' ∉ "t".toList ∧ '\x1b' ∉ "a: b,\n\tc".toList ∧
    '\x1b' ∈ render .labels ⟨.mixedItems "a: b,\n\tc".toList, ⟨0, 8⟩⟩ "t".toList
      "a: b,\n\tc".toList ∧
    withoutColors (render .full ⟨.mixedItems "a: b,\n\tc".toList, ⟨0, 8⟩⟩ "t".toList
        "a: b,\n\tc".toList) =
      render .none ⟨.mixedItems "a: b,\n\tc".toList, ⟨0, 8⟩⟩ "t".toList "a: b,\n\tc".toList := by
  have h : Expression.parse "a: b,\n\tc".toList =
      .error (.refused ⟨.mixedItems "a: b,\n\tc".toList, ⟨0, 8⟩⟩) := by
    decide +kernel
  obtain ⟨hcause, hlt⟩ := fits_of_refused (.inr h)
  have hfilename : '\x1b' ∉ "t".toList := by decide
  have hsource : '\x1b' ∉ "a: b,\n\tc".toList := by decide
  obtain ⟨_, hwithout, hextent⟩ := labels_keep_color hfilename hsource hcause
  obtain ⟨hlabels, _, hlabelled⟩ := hextent hlt
  exact ⟨h, hfilename, hsource, hlabels.mpr (hlabelled (by decide)), hwithout .full⟩

/-- A label on one line, in a report that is to have no colours, has them. -/
theorem label_colored_on_one_line :
    tokenize ['\x7b'] = .error (.refused ⟨.unmatchedBrace, ⟨0, 1⟩⟩) ∧
    (linesOf ['\x7b']).length = 1 ∧
    '\x1b' ∈ render .labels ⟨.unmatchedBrace, ⟨0, 1⟩⟩ ['t'] ['\x7b'] ∧
    render .labels ⟨.unmatchedBrace, ⟨0, 1⟩⟩ ['t'] ['\x7b'] ≠
      withoutColors (render .full ⟨.unmatchedBrace, ⟨0, 1⟩⟩ ['t'] ['\x7b']) := by
  decide +kernel

end Report

end Stencil
