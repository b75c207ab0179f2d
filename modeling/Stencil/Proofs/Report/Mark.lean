import Stencil.Proofs.Report.Rows

/-!
# The mark under an opener

A report on an opener that is never closed shows the line of the opener and under it a row
with one mark. Tabs are shown as cells up to the next stop and the cells under them are as
many, so the mark and the opener have the same number of cells on their left. This is so
wherever each character fills one cell, as those of ASCII do.
-/

set_option autoImplicit false

namespace Stencil

def printedWidth (t : Text) : Nat := (t.map cellWidth).sum

theorem cellWidth_of_ascii {c : Char} (h : c.toNat < 128) : cellWidth c = 1 := by
  have hall : ∀ n < 128, cellWidth (Char.ofNat n) = 1 := by decide +kernel
  have hc := hall c.toNat h
  rwa [Char.ofNat_toNat] at hc

theorem utf8Size_of_ascii {c : Char} (h : c.toNat < 128) : c.utf8Size = 1 := by
  rw [Char.utf8Size_eq_one_iff]
  show c.toNat ≤ 127
  omega

theorem printedWidth_eq_length {t : Text} (h : ∀ c ∈ t, cellWidth c = 1) :
    printedWidth t = t.length := by
  rw [printedWidth, List.map_congr_left h, List.map_const', List.sum_replicate_nat, Nat.mul_one]

def Line.lead (number : Nat) (before : Text) : Text :=
  ' ' :: (decimal number ++ [' ', '│', ' ']) ++ Line.expand 0 before

/-- Two rows of a report, the first of which shows a line of a source with its number, and the
second one mark, under a character of the line. What is not blank in the line is shown as it is. -/
structure Marks (number : Nat) (before : Text) (c : Char) (after shown marked : Text) : Prop where
  exists_parts : ∃ right under beyond, shown = Line.lead number before ++ c :: right ∧
    right = Line.expand (before.length + 1) (trimEnd after) ∧
    marked = under ++ '┬' :: beyond ∧ '┬' ∉ under ++ beyond ∧
    printedWidth under = printedWidth (Line.lead number before)
  keeps : (Line.expand 0 before ++ c :: Line.expand (before.length + 1) (trimEnd after)).filter
    (fun d => !isBlank d) = (before ++ c :: after).filter (fun d => !isBlank d)
  one_line : '\n' ∉ shown ++ marked

theorem lineFeed_notMem_expand (index : Nat) (t : Text) : '\n' ∉ Line.expand index t := by
  intro h
  rcases Line.mem_expand h with h | ⟨_, h⟩
  · cases h
  · exact absurd h (by decide)

theorem lineFeed_notMem_lead (number : Nat) (before : Text) : '\n' ∉ Line.lead number before := by
  have hnumber : '\n' ∉ decimal number := fun h => absurd (isDigit_of_mem_decimal h) (by decide)
  simp [Line.lead, hnumber, lineFeed_notMem_expand]

theorem filter_blanks {w : Text} (hw : Blanks w) : w.filter (fun d => !isBlank d) = [] := by
  rw [List.filter_eq_nil_iff]
  intro d hd
  rw [hw d hd]
  decide

/-- Each character that a row shows before another of one cell fills one cell too. -/
theorem cellWidth_of_mem_lead {number : Nat} {before : Text}
    (h : ∀ d ∈ before, cellWidth d = 1) : ∀ d ∈ Line.lead number before, cellWidth d = 1 := by
  have hspace : cellWidth ' ' = 1 := by decide +kernel
  have hedge : cellWidth '│' = 1 := by decide +kernel
  have hdigit : ∀ d ∈ decimal number, cellWidth d = 1 := by
    intro d hd
    apply cellWidth_of_ascii
    have hd := isDigit_of_mem_decimal hd
    simp only [Char.isDigit, Bool.and_eq_true, decide_eq_true_eq] at hd
    have hle : d.toNat ≤ 57 := hd.2
    omega
  have hexpand : ∀ d ∈ Line.expand 0 before, cellWidth d = 1 := by
    intro d hd
    rcases Line.mem_expand hd with rfl | ⟨hd, _⟩
    · exact hspace
    · exact h d hd
  simp only [Line.lead, List.mem_append, List.mem_cons, List.not_mem_nil, or_false]
  rintro d ((rfl | hd | rfl | rfl | rfl) | hd)
  · exact hspace
  · exact hdigit d hd
  · exact hspace
  · exact hedge
  · exact hspace
  · exact hexpand d hd

namespace Label

structure OnChar (label : Label) (before : Text) (c : Char) (after : Text) : Prop where
  last_eq : label.last = label.first
  text_eq : label.first.text = before ++ c :: after
  start_eq : label.start = label.first.start + before.length
  stop_eq : label.stop = label.start + 1

theorem on?_char {source : Text} {offset : Nat} {line : Line}
    (h : lineAt? source offset = some line) (message : Text) :
    on? source offset (offset + 1) message =
      some ⟨source, offset, offset + 1, message, line, line⟩ := by
  simp [on?, h]

namespace OnChar

variable {label : Label} {before after : Text} {c : Char} (h : label.OnChar before c after)

include h

theorem middle : label.middle = before.length := by
  rw [Label.middle, h.stop_eq, h.start_eq]
  omega

theorem reach : label.reach = before.length + 3 := by
  rw [Label.reach, h.stop_eq, h.start_eq]
  omega

theorem column : label.column = before.length + 1 := by
  rw [Label.column, h.start_eq]
  omega

theorem covers (i : Nat) : label.covers (label.first.start + i) = decide (i = before.length) := by
  rw [Label.covers, h.stop_eq, h.start_eq, ← Bool.decide_and]
  congr 1
  rw [eq_iff_iff]
  omega

theorem draw : label.draw = [label.lineMargin label.first ++ label.lineText label.first,
    label.blankMargin ++ label.bar, label.blankMargin ++ label.arm ++ label.said] := by
  have hstop : ¬ label.first.stop < label.stop := by
    rw [h.stop_eq, h.start_eq, Line.stop, h.text_eq, List.length_append, List.length_cons]
    omega
  rw [Label.draw, h.last_eq, if_pos rfl, drawLine, if_neg hstop]

theorem shown (hc : isBlank c = false) : label.first.shown = before ++ c :: trimEnd after := by
  have hlast : ∀ d ∈ (before ++ [c]).getLast?, isBlank d = false := by simpa using hc
  have htrim := trimEnd_append_of_last hlast after
  rw [Line.shown, h.text_eq]
  simpa using htrim

theorem paint_bar (hc : isBlank c = false) (hwidth : cellWidth c = 1) :
    ∃ n, Row.paint .none label.bar =
      spaces (Line.widthsFrom 0 before).sum ++ '┬' :: spaces n := by
  obtain ⟨rest, hrest⟩ : ∃ rest, label.first.widths label.reach =
      Line.widthsFrom 0 before ++ 1 :: rest := by
    rw [Line.widths_eq, h.shown hc, h.reach, Line.widthsFrom_append, Line.widthsFrom,
      Line.charWidth_of_not_blank hc, hwidth, List.append_assoc, List.take_append,
      List.take_of_length_le (by rw [Line.length_widthsFrom]; omega), Line.length_widthsFrom,
      Nat.add_sub_cancel_left]
    exact ⟨_, rfl⟩
  -- What the bar draws at an index.
  have hdraw : Row.paint .none label.bar = cellTexts
      (fun i => if i = before.length then some ('┬', '─') else none) 0
      (label.first.widths label.reach) := by
    rw [bar, paint_cells]
    congr 1
    funext i
    rw [h.middle, h.covers]
    by_cases hi : i = before.length <;> simp [hi]
  refine ⟨rest.sum, ?_⟩
  rw [hdraw, hrest, cellTexts_append, cellTexts, cellTexts_blank, cellTexts_blank]
  · simp [Line.length_widthsFrom, cellText, cell]
  · intro i _
    rw [Line.length_widthsFrom, if_neg (by omega)]
  · intro i hi
    rw [Line.length_widthsFrom] at hi
    rw [if_neg (by omega)]

/-- The line and the bar have as many cells on the left of the character and of its mark. -/
theorem marks (hc : isBlank c = false) (hcells : ∀ d ∈ before ++ [c], cellWidth d = 1) :
    Marks label.first.number before c after
      (Row.paint .none (label.lineMargin label.first ++ label.lineText label.first))
      (Row.paint .none (label.blankMargin ++ label.bar)) := by
  have hbefore : ∀ d ∈ before, cellWidth d = 1 :=
    fun d hd => hcells d (List.mem_append_left _ hd)
  have hmargin : label.margin = (decimal label.first.number).length := by
    rw [margin, h.last_eq]
  obtain ⟨n, hbar⟩ := h.paint_bar hc (hcells c (by simp))
  have hshown : Row.paint .none (label.lineMargin label.first ++ label.lineText label.first) =
      Line.lead label.first.number before
        ++ c :: Line.expand (before.length + 1) (trimEnd after) := by
    rw [Row.paint_append, paint_lineMargin, paint_lineText, h.shown hc, hmargin, Nat.sub_self,
      Line.expand_append, Line.expand, Line.showChar_of_not_blank hc, Line.lead]
    simp [spaces]
  have hmarked : Row.paint .none (label.blankMargin ++ label.bar) =
      (' ' :: (spaces (label.margin + 1) ++ ['│', ' ']) ++ spaces (Line.widthsFrom 0 before).sum)
        ++ '┬' :: spaces n := by
    rw [Row.paint_append, blankMargin, paint_gutter, hbar, List.append_assoc]
  have hunder : ∀ d ∈ ' ' :: (spaces (label.margin + 1) ++ ['│', ' '])
      ++ spaces (Line.widthsFrom 0 before).sum, d = ' ' ∨ d = '│' := by
    intro d hd
    simp only [spaces, List.mem_append, List.mem_cons, List.mem_replicate, List.not_mem_nil,
      or_false] at hd
    tauto
  refine ⟨⟨_, _, _, hshown, rfl, hmarked, ?_, ?_⟩, ?_, ?_⟩
  · intro hmark
    rcases List.mem_append.mp hmark with hmark | hmark
    · rcases hunder _ hmark with hmark | hmark <;> cases hmark
    · cases List.eq_of_mem_replicate hmark
  · have hcell : ∀ d ∈ ' ' :: (spaces (label.margin + 1) ++ ['│', ' '])
        ++ spaces (Line.widthsFrom 0 before).sum, cellWidth d = 1 := by
      intro d hd
      rcases hunder d hd with rfl | rfl <;> decide +kernel
    rw [printedWidth_eq_length hcell, printedWidth_eq_length (cellWidth_of_mem_lead hbefore),
      Line.lead, hmargin, ← Line.length_expand hbefore]
    simp only [spaces, List.length_append, List.length_cons, List.length_replicate, List.length_nil]
  · obtain ⟨w, hw, hafter⟩ := exists_trimEnd after
    calc (Line.expand 0 before ++ c :: Line.expand (before.length + 1) (trimEnd after)).filter
          (fun d => !isBlank d)
        = before.filter (fun d => !isBlank d)
            ++ c :: (trimEnd after).filter (fun d => !isBlank d) := by
          rw [List.filter_append, List.filter_cons_of_pos (by simp [hc]), Line.filter_expand,
            Line.filter_expand]
      _ = before.filter (fun d => !isBlank d) ++ c :: after.filter (fun d => !isBlank d) := by
          conv_rhs => rw [hafter, List.filter_append, filter_blanks hw, List.append_nil]
      _ = (before ++ c :: after).filter (fun d => !isBlank d) := by
          rw [List.filter_append, List.filter_cons_of_pos (by simp [hc])]
  · have hline : '\n' ≠ c := by
      rintro rfl
      exact absurd hc (by decide)
    have hblanks : '\n' ∉ spaces n := fun hmem => by cases List.eq_of_mem_replicate hmem
    have hleft := fun hmem => hunder '\n' hmem
    rw [hshown, hmarked, List.mem_append, List.mem_append, List.mem_append, List.mem_cons,
      List.mem_cons]
    rintro ((hmem | hmem | hmem) | hmem | hmem | hmem)
    · exact lineFeed_notMem_lead _ _ hmem
    · exact hline hmem
    · exact lineFeed_notMem_expand _ _ hmem
    · rcases hleft hmem with hmem | hmem <;> cases hmem
    · cases hmem
    · exact hblanks hmem

end OnChar

end Label

namespace Report

theorem exists_opener {template : Text} {error : SyntaxError}
    (h : tokenize template = .error (.refused error))
    (hcause : ∀ expression, error.cause ≠ .mixedItems expression) :
    ∃ opener, error.cause.named = [opener] ∧ isBlank opener = false := by
  obtain ⟨_, hunbalanced⟩ := SyntaxError.points_of_refused h
  cases hc : error.cause with
  | unmatchedBrace => exact ⟨'{', rfl, by decide⟩
  | unmatchedPair opener =>
    obtain ⟨_, _, _, hcloser, _⟩ := hunbalanced opener hc
    exact ⟨opener, rfl, bracketing_closer?.isBlank_opener hcloser⟩
  | mixedItems expression => exact absurd hc (hcause expression)

theorem exists_render {error : SyntaxError} {source : Text} {label : Label}
    (hlabel : Label.on? source error.span.start error.span.stop error.cause.notice.label =
      some label)
    {before after : Text} {c : Char} (h : label.OnChar before c after) (filename : Text) :
    ∃ below, render .none error filename source =
      (titleRow error.cause.notice).paint .none ++ '\n' ::
        ((locationRow (label.margin + 2) filename label.first.number (before.length + 1)).paint .none
          ++ '\n' :: ((openingRow label).paint .none
          ++ '\n' :: ((label.lineMargin label.first ++ label.lineText label.first : Row).paint .none
          ++ '\n' :: ((label.blankMargin ++ label.bar : Row).paint .none ++ '\n' :: below)))) := by
  refine ⟨paintRows .none ((label.blankMargin ++ label.arm ++ label.said) :: spacerRow label
    :: helpRows error.cause.notice label ++ [closingRow label]), ?_⟩
  rw [← h.column]
  simp only [render, rows, hlabel, h.draw, paintRows, List.flatMap_cons, List.cons_append,
    List.append_assoc, List.nil_append]
  rfl

/-- The report on an opener that is never closed, in a template of ASCII, names the line and the
column of the opener, shows that line and has its mark under the opener. -/
theorem mark_under_opener {template : Text} {error : SyntaxError}
    (hascii : ∀ c ∈ template, c.toNat < 128) (h : tokenize template = .error (.refused error))
    (hcause : ∀ expression, error.cause ≠ .mixedItems expression) (filename : Text) :
    ∃ earlier before opener after later,
      splitLines template = earlier ++ (before ++ opener :: after) :: later ∧
      error.cause.named = [opener] ∧ error.span = ⟨byteSize (earlier.flatten ++ before), 1⟩ ∧
      ∃ title margin opening shown marked below,
        render .none error filename template = title ++ '\n' ::
          ((locationRow margin filename (earlier.length + 1) (before.length + 1)).paint .none
            ++ '\n' :: (opening ++ '\n' :: (shown ++ '\n' :: (marked ++ '\n' :: below)))) ∧
        '\n' ∉ title ∧ '\n' ∉ opening ∧
        Marks (earlier.length + 1) before opener after shown marked := by
  obtain ⟨opener, hnamed, hblank⟩ := exists_opener h hcause
  obtain ⟨front, _, _, back, _, htemplate, hspan⟩ := exists_culprit h
  rw [hnamed, List.append_assoc, List.singleton_append] at htemplate
  obtain ⟨earlier, before, after, later, hlines, rfl⟩ :=
    exists_line_of_flatten front ((flatten_splitLines template).trans htemplate)
  have hline := lineAt?_of_splitLines hlines
  have hones : ∀ c ∈ template, c.utf8Size = 1 := fun c hc => utf8Size_of_ascii (hascii c hc)
  have hfront : byteSize (earlier.flatten ++ before) = (earlier.flatten ++ before).length := by
    apply byteSize_eq_length_iff.mpr
    intro c hc
    exact hones c (by rw [htemplate]; exact List.mem_append_left _ hc)
  have hspan' : error.span = ⟨byteSize (earlier.flatten ++ before), 1⟩ := by
    rw [hspan, hnamed, byteSize_cons, hones opener (by rw [htemplate]; simp), byteSize_nil]
  have hcells : ∀ d ∈ before ++ [opener], cellWidth d = 1 := by
    intro d hd
    apply cellWidth_of_ascii
    apply hascii d
    rw [htemplate]
    simp only [List.mem_append, List.mem_cons] at hd ⊢
    tauto
  -- The label that is set on the opener.
  obtain ⟨label, hlabel, honchar, hnumber⟩ : ∃ label, Label.on? template error.span.start
      error.span.stop error.cause.notice.label = some label ∧
      label.OnChar before opener after ∧ label.first.number = earlier.length + 1 := by
    rw [hspan', hfront]
    exact ⟨_, Label.on?_char hline _, ⟨rfl, rfl, List.length_append, rfl⟩, rfl⟩
  obtain ⟨below, hrender⟩ := exists_render hlabel honchar filename
  have hmarks := honchar.marks hblank hcells
  rw [hnumber] at hrender hmarks
  have hopening : '\n' ∉ (openingRow label).paint .none := by
    apply newline_notMem_paint
    simp [openingRow, plain, Label.spaces]
  exact ⟨earlier, before, opener, after, later, hlines, hnamed, hspan', _, _, _, _, _, below,
    hrender, newline_notMem_title h .none, hopening, hmarks⟩

theorem mark_under_opener_tabs :
    (∀ c ∈ "a\n\tb\t\x7bc \r".toList, c.toNat < 128) ∧
    tokenize "a\n\tb\t\x7bc \r".toList = .error (.refused ⟨.unmatchedBrace, ⟨5, 1⟩⟩) ∧
    ∃ title margin opening shown marked below,
      render .none ⟨.unmatchedBrace, ⟨5, 1⟩⟩ "t".toList "a\n\tb\t\x7bc \r".toList =
        title ++ '\n' :: ((locationRow margin "t".toList 2 4).paint .none
          ++ '\n' :: (opening ++ '\n' :: (shown ++ '\n' :: (marked ++ '\n' :: below)))) ∧
      Marks 2 "\tb\t".toList '{' "c \r".toList shown marked := by
  have hall : "a\n\tb\t\x7bc \r".toList.all (fun c => decide (c.toNat < 128)) = true := by decide
  have hascii : ∀ c ∈ "a\n\tb\t\x7bc \r".toList, c.toNat < 128 :=
    fun c hc => of_decide_eq_true (List.all_eq_true.mp hall c hc)
  have h : tokenize "a\n\tb\t\x7bc \r".toList =
      .error (.refused ⟨.unmatchedBrace, ⟨5, 1⟩⟩) := by
    decide +kernel
  refine ⟨hascii, h, ?_⟩
  obtain ⟨earlier, before, opener, after, later, hlines, hnamed, hspan, title, margin, opening,
    shown, marked, below, hrender, _, _, hmarks⟩ :=
    mark_under_opener hascii h (fun _ hc => by cases hc) "t".toList
  obtain rfl : '{' = opener := (List.cons.inj hnamed).1
  have hsplit : splitLines "a\n\tb\t\x7bc \r".toList =
      ["a\n".toList, "\tb\t\x7bc \r".toList] := by
    decide +kernel
  rw [hsplit] at hlines
  -- The brace is on the second line, three bytes from its start.
  rcases earlier with _ | ⟨first, _ | ⟨second, earlier⟩⟩
  · have hbrace : '{' ∈ "a\n".toList := by
      rw [(List.cons.inj hlines).1]
      simp
    exact absurd hbrace (by decide)
  · obtain ⟨rfl, hrest⟩ := List.cons.inj hlines
    have hline := (List.cons.inj hrest).1
    have hsize : byteSize before = 3 := by
      have hstart := (Span.mk.inj hspan).1
      have hfirst : byteSize "a\n".toList = 2 := by decide
      rw [List.flatten_singleton, byteSize_append, hfirst] at hstart
      omega
    have hcut : splitBytes? 3 "\tb\t\x7bc \r".toList =
        some ("\tb\t".toList, "\x7bc \r".toList) := by
      decide +kernel
    obtain ⟨rfl, hafter⟩ := Prod.mk.inj (Option.some.inj
      ((splitBytes?_eq_some.mpr ⟨hline, hsize⟩).symm.trans hcut))
    obtain rfl := (List.cons.inj hafter).2
    exact ⟨title, margin, opening, shown, marked, below, hrender, hmarks⟩
  · have hlength := congrArg List.length hlines
    simp at hlength

end Report

end Stencil
