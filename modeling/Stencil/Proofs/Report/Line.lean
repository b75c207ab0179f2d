import Stencil.Report.Label

/-!
# Where a character stands

A character of a source stands on one line, at one column, and both are counted from
one. The line that is looked up for an offset is the one the character at that offset
stands on, so two offsets never have the line and the column in common.
-/

set_option autoImplicit false

namespace Stencil

structure Located (source before : Text) (line column : Nat) : Prop where
  stands : ∃ earlier s c rest later, splitLines source = earlier ++ (s ++ c :: rest) :: later ∧
    before = earlier.flatten ++ s ∧ line = earlier.length + 1 ∧ column = s.length + 1

theorem exists_line_of_flatten {lines : List Text} (before : Text) {after : Text} {c : Char}
    (h : lines.flatten = before ++ c :: after) :
    ∃ earlier s rest later, lines = earlier ++ (s ++ c :: rest) :: later ∧
      before = earlier.flatten ++ s := by
  induction lines generalizing before with
  | nil => simp at h
  | cons line lines ih =>
    rw [List.flatten_cons] at h
    rcases List.append_eq_append_iff.mp h with ⟨s, rfl, hrest⟩ | ⟨s, rfl, hrest⟩
    · obtain ⟨earlier, s', rest, later, rfl, rfl⟩ := ih s hrest
      exact ⟨line :: earlier, s', rest, later, rfl, by simp⟩
    · cases s with
      | nil =>
        obtain ⟨earlier, s', rest, later, rfl, hbefore⟩ := ih [] hrest.symm
        refine ⟨(before ++ []) :: earlier, s', rest, later, rfl, ?_⟩
        rw [List.flatten_cons, List.append_assoc, ← hbefore, List.append_nil, List.append_nil]
      | cons c' s =>
        obtain ⟨rfl, rfl⟩ := List.cons.inj hrest
        exact ⟨[], before, s, lines, rfl, rfl⟩

theorem exists_located (before : Text) (c : Char) (after : Text) :
    ∃ line column, Located (before ++ c :: after) before line column := by
  obtain ⟨earlier, s, rest, later, hlines, hbefore⟩ :=
    exists_line_of_flatten before (flatten_splitLines (before ++ c :: after))
  exact ⟨_, _, ⟨earlier, s, c, rest, later, hlines, hbefore, rfl, rfl⟩⟩

theorem numberLines_append (number start : Nat) (earlier later : List Text) :
    numberLines number start (earlier ++ later) = numberLines number start earlier
      ++ numberLines (number + earlier.length) (start + earlier.flatten.length) later := by
  induction earlier generalizing number start with
  | nil => rfl
  | cons line earlier ih =>
    simp only [List.cons_append, numberLines, ih, List.length_cons, List.flatten_cons,
      List.length_append]
    congr 3 <;> omega

theorem le_of_mem_numberLines {number start : Nat} {lines : List Text} {line : Line}
    (h : line ∈ numberLines number start lines) : number ≤ line.number ∧ start ≤ line.start := by
  induction lines generalizing number start with
  | nil => cases h
  | cons text lines ih =>
    rcases List.mem_cons.mp h with rfl | h
    · exact ⟨Nat.le_refl _, Nat.le_refl _⟩
    · have hle := ih h
      omega

theorem eq_of_mem_numberLines {number start : Nat} {lines : List Text} {line line' : Line}
    (h : line ∈ numberLines number start lines) (h' : line' ∈ numberLines number start lines)
    (hn : line.number = line'.number) : line = line' := by
  induction lines generalizing number start with
  | nil => cases h
  | cons text lines ih =>
    rcases List.mem_cons.mp h with rfl | h <;> rcases List.mem_cons.mp h' with rfl | h'
    · rfl
    · have hle := le_of_mem_numberLines h'
      simp only at hn
      omega
    · have hle := le_of_mem_numberLines h
      simp only at hn
      omega
    · exact ih h h'

theorem linesOf_eq_numberLines {source : Text} (h : source ≠ []) :
    linesOf source = numberLines 1 0 (splitLines source) := by
  simp [linesOf, h]

theorem exists_linesOf_eq_cons (source : Text) :
    ∃ line rest, linesOf source = line :: rest ∧ line.start = 0 := by
  by_cases hsource : source = []
  · exact ⟨⟨1, 0, []⟩, [], by rw [hsource]; rfl, rfl⟩
  · rw [linesOf_eq_numberLines hsource]
    cases hlines : splitLines source with
    | nil =>
      have hflatten := flatten_splitLines source
      rw [hlines] at hflatten
      exact absurd hflatten.symm hsource
    | cons text lines => exact ⟨⟨1, 0, text⟩, _, rfl, rfl⟩

theorem exists_lineAt? {source : Text} {offset : Nat} (h : offset ≤ source.length) :
    ∃ line, lineAt? source offset = some line := by
  obtain ⟨line, rest, hlines, hstart⟩ := exists_linesOf_eq_cons source
  rw [lineAt?, if_pos h, hlines, List.filter_cons_of_pos (by simp [hstart])]
  exact ⟨_, List.getLast?_cons⟩

theorem mem_linesOf_of_lineAt? {source : Text} {offset : Nat} {line : Line}
    (h : lineAt? source offset = some line) : line ∈ linesOf source ∧ line.start ≤ offset := by
  unfold lineAt? at h
  split at h
  · simpa using List.mem_of_getLast? h
  · cases h

theorem line_eq_of_number_eq {source : Text} {line line' : Line} (h : line ∈ linesOf source)
    (h' : line' ∈ linesOf source) (hn : line.number = line'.number) : line = line' := by
  by_cases hsource : source = []
  · rw [hsource] at h h'
    simp only [linesOf, List.isEmpty_nil, if_pos, List.mem_singleton] at h h'
    rw [h, h']
  · rw [linesOf_eq_numberLines hsource] at h h'
    exact eq_of_mem_numberLines h h' hn

theorem eq_of_lineAt? {source : Text} {offset offset' : Nat} {line line' : Line}
    (h : lineAt? source offset = some line) (h' : lineAt? source offset' = some line')
    (hn : line.number = line'.number) (hc : offset - line.start = offset' - line'.start) :
    offset = offset' := by
  obtain ⟨hmem, hle⟩ := mem_linesOf_of_lineAt? h
  obtain ⟨hmem', hle'⟩ := mem_linesOf_of_lineAt? h'
  obtain rfl := line_eq_of_number_eq hmem hmem' hn
  omega

theorem mem_of_mem_linesOf {source : Text} {line : Line} (h : line ∈ linesOf source) {c : Char}
    (hc : c ∈ line.text) : c ∈ source := by
  have hlines {number start : Nat} {lines : List Text} (h : line ∈ numberLines number start lines) :
      line.text ∈ lines := by
    induction lines generalizing number start with
    | nil => cases h
    | cons text lines ih =>
      rcases List.mem_cons.mp h with rfl | h
      · exact List.mem_cons_self
      · exact List.mem_cons_of_mem _ (ih h)
  by_cases hsource : source = []
  · rw [hsource] at h
    simp only [linesOf, List.isEmpty_nil, if_pos, List.mem_singleton] at h
    rw [h] at hc
    cases hc
  · rw [linesOf_eq_numberLines hsource] at h
    rw [← flatten_splitLines source]
    exact List.mem_flatten_of_mem (hlines h) hc

/-- The line that is looked up is the one that the character stands on. -/
theorem lineAt?_of_splitLines {source s rest : Text} {earlier later : List Text} {c : Char}
    (h : splitLines source = earlier ++ (s ++ c :: rest) :: later) :
    lineAt? source (earlier.flatten ++ s).length =
      some ⟨earlier.length + 1, earlier.flatten.length, s ++ c :: rest⟩ := by
  have hflatten := flatten_splitLines source
  rw [h, List.flatten_append, List.flatten_cons] at hflatten
  have hsource : source ≠ [] := by
    rintro rfl
    simp at hflatten
  have hlength : (earlier.flatten ++ s).length ≤ source.length := by
    rw [← hflatten]
    simp only [List.length_append, List.length_cons]
    omega
  -- The lines after this one begin past the character.
  have hlater : (numberLines (earlier.length + 1 + 1)
      (earlier.flatten.length + (s ++ c :: rest).length) later).filter
        (·.start ≤ (earlier.flatten ++ s).length) = [] := by
    rw [List.filter_eq_nil_iff]
    intro line hline
    have hle := le_of_mem_numberLines hline
    simp only [List.length_append, List.length_cons] at hle
    simp only [decide_eq_true_eq, List.length_append]
    omega
  rw [lineAt?, if_pos hlength, linesOf_eq_numberLines hsource, h, numberLines_append,
    numberLines, Nat.zero_add, Nat.add_comm 1, List.filter_append, List.filter_cons_of_pos,
    hlater, List.getLast?_concat]
  simp

theorem lt_stop_of_lineAt? {source : Text} {offset : Nat} {line : Line}
    (h : lineAt? source offset = some line) (hlt : offset < source.length) :
    offset < line.stop := by
  have hsource : source = source.take offset ++ source[offset] :: source.drop (offset + 1) := by
    rw [← List.drop_eq_getElem_cons, List.take_append_drop]
  obtain ⟨earlier, s, rest, later, hlines, hbefore⟩ :=
    exists_line_of_flatten _ ((flatten_splitLines source).trans hsource)
  have hoffset := congrArg List.length hbefore
  rw [List.length_take_of_le (Nat.le_of_lt hlt)] at hoffset
  rw [hoffset, lineAt?_of_splitLines hlines] at h
  rw [hoffset, ← Option.some.inj h, Line.stop]
  simp only [List.length_append, List.length_cons]
  omega

theorem Located.lineAt? {source before : Text} {line column : Nat}
    (h : Located source before line column) :
    ∃ found, Stencil.lineAt? source before.length = some found ∧ found.number = line ∧
      before.length - found.start + 1 = column := by
  obtain ⟨earlier, s, c, rest, later, hlines, rfl, rfl, rfl⟩ := h.stands
  refine ⟨_, lineAt?_of_splitLines hlines, rfl, ?_⟩
  simp only [List.length_append]
  omega

/-- A character stands in one place. -/
theorem Located.unique {source before : Text} {line line' column column' : Nat}
    (h : Located source before line column) (h' : Located source before line' column') :
    line = line' ∧ column = column' := by
  obtain ⟨found, hfound, rfl, rfl⟩ := h.lineAt?
  obtain ⟨found', hfound', rfl, rfl⟩ := h'.lineAt?
  obtain rfl := Option.some.inj (hfound.symm.trans hfound')
  exact ⟨rfl, rfl⟩

/-- A label is set on every range that ends in the source or one past its end. -/
theorem Label.exists_on? {source : Text} {start stop : Nat} (hlt : start < stop)
    (hle : stop ≤ source.length + 1) (message : Text) :
    ∃ label, Label.on? source start stop message = some label ∧
      Stencil.lineAt? source start = some label.first ∧ label.start = start := by
  have hstart : start ≤ source.length := by omega
  have hstop : stop - 1 ≤ source.length := by omega
  obtain ⟨first, hfirst⟩ := exists_lineAt? hstart
  obtain ⟨last, hlast⟩ := exists_lineAt? hstop
  refine ⟨⟨source, start, stop, message, first, last⟩, ?_, hfirst, rfl⟩
  simp [Label.on?, hfirst, hlast, hlt]

theorem Label.on?_eq_none {source : Text} {start stop : Nat} (hlt : start < stop)
    (hle : source.length + 1 < stop) (message : Text) :
    Label.on? source start stop message = none := by
  have hlast : Stencil.lineAt? source (stop - 1) = none := by
    rw [Stencil.lineAt?, if_neg (by omega)]
  simp [Label.on?, hlast, hlt]

end Stencil
