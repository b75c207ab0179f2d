import Stencil.Proofs.Item.Parts

/-!
# Parts that can be told apart

The parts of an entry can be put together with other blanks between them, or with
another tail, and told apart again. What that takes is said here of the parts by
themselves, and it is shown of the parts of every entry.
-/

set_option autoImplicit false

namespace Stencil

namespace Item

open Lexeme (spell Quiet Lexed Closed)
open Segment (Entry Inert Whole)

structure KeyPart (key : Text) : Prop where
  trimmed : Trimmed key
  whole : Whole key
  inert : Inert key
  quiet : ∀ r, Quiet (stops false) (Lexeme.read closer? key) (':' :: r)

structure Sits (keyed : Bool) (value r : Text) : Prop where
  quiet : Quiet (stops keyed) (Lexeme.read closer? value) r
  spaced : keyed = true → value ≠ [] → marks (' ' :: (value ++ r)) = false

structure Separable (item : Item) : Prop where
  key : ∀ key ∈ item.key, KeyPart key
  trimmed : Trimmed item.value
  inert : Inert item.value
  whole : item.condition ≠ none → Whole item.value
  filled : item.value = [] → item.key ≠ none ∧ item.condition ≠ none
  sits : ∀ r, (r ≠ [] → item.condition ≠ none ∧ 'f' ∉ r.head?) → Sits item.isKeyed item.value r
  condition : ∀ condition ∈ item.condition, Entry condition

theorem Ends.sits {keyed : Bool} {value marked : List Lexeme} (h : Ends keyed value marked)
    (hl : Lexed closer? (value ++ marked))
    (hlast : ∀ c ∈ (spell (value ++ marked)).getLast?, isBlank c = false)
    (hb : keyed = true → ∃ b ∈ (spell (value ++ marked)).head?, isBlank b = true) {r : Text}
    (hr : r ≠ [] → marked ≠ [] ∧ 'f' ∉ r.head?) : Sits keyed (trim (spell value)) r := by
  obtain ⟨hspell, hvalue⟩ := h.value_eq hl hlast
  have htrim := trimmed_trim (spell value)
  have hw := blanks_leadingBlanks (spell value)
  have hquiet := h.quiet
  generalize leadingBlanks (spell value) = w at hspell hvalue hw
  generalize trim (spell value) = x at hspell hvalue htrim
  have hblank : ∀ b ∈ r.head?, isBlank b = true → ∃ d ∈ (spell marked).head?, isBlank d = true := by
    intro b hbr _
    have hne : r ≠ [] := by
      rintro rfl
      cases hbr
    exact head?_of_marks (h.begins (hr hne).1)
  have hf : 'f' ∉ r.head? := by
    by_cases hne : r = []
    · simp [hne]
    · exact (hr hne).2
  refine ⟨?_, ?_⟩
  · rw [hvalue] at hquiet
    refine quiet_stops (Lexeme.lexed_read bracketing_closer? x) ?_ hblank hf
      (Lexeme.quiet_append.mp hquiet).2
    rw [Lexeme.spell_read]
    exact htrim.last
  · intro hk hx
    have hne : value ≠ [] := by
      rintro rfl
      exact hx (List.append_eq_nil_iff.mp hspell.symm).2
    have hwne : w ≠ [] := by
      rintro rfl
      obtain ⟨b, hb, hbb⟩ := hb hk
      rw [Lexeme.spell_append, hspell, List.nil_append, List.head?_append_of_ne_nil _ hx] at hb
      rw [htrim.head b hb] at hbb
      cases hbb
    have hmarks : marks (w ++ x ++ spell marked) = false := by
      have hstop := hquiet.head hne
      rw [hspell] at hstop
      exact (Bool.or_eq_false_iff.mp hstop).2
    have hmarks' : marks (w ++ x ++ r) = false := by
      refine marks_append_eq_false (by simp [hx]) ?_ hblank hf hmarks
      rw [List.getLast?_append_of_ne_nil _ hx]
      exact htrim.last
    cases hm : marks (' ' :: (x ++ r)) with
    | false => rfl
    | true =>
      have hhead : ∀ c ∈ (x ++ r).head?, isBlank c = false := by
        rw [List.head?_append_of_ne_nil _ hx]
        exact htrim.head
      rw [List.append_assoc, marks_blanks_append blanks_space hw hwne hhead hm] at hmarks'
      cases hmarks'

def isBrace (c : Char) : Bool := c == '{' || c == '}'

theorem filter_isBrace_blanks {w : Text} (hw : Blanks w) : w.filter isBrace = [] := by
  refine List.filter_eq_nil_iff.mpr ?_
  intro c hc hb
  have hblank := hw c hc
  rcases Bool.or_eq_true_iff.mp hb with h | h
  · rw [eq_of_beq h] at hblank
    exact absurd hblank (by decide)
  · rw [eq_of_beq h] at hblank
    exact absurd hblank (by decide)

structure Splits (text : Text) (item : Item) : Prop where
  separable : Separable item
  whole : Whole text → Whole item.value ∧ ∀ condition ∈ item.condition, Whole condition
  braces : text.filter isBrace =
    (item.key.getD [] ++ item.value ++ item.condition.getD []).filter isBrace

theorem Ends.condition_iff {keyed : Bool} {value marked : List Lexeme}
    (h : Ends keyed value marked) (hl : Lexed closer? (value ++ marked))
    (hlast : ∀ c ∈ (spell (value ++ marked)).getLast?, isBlank c = false)
    (key : Option (List Lexeme)) :
    ((Layout.mk key value marked).condition ≠ none ↔ marked ≠ []) ∧
      (∀ condition ∈ (Layout.mk key value marked).condition, condition ≠ [] ∧ Trimmed condition ∧
        ∀ lexeme ∈ Lexeme.read closer? condition, lexeme ∈ marked) ∧
      (spell marked).filter isBrace =
        ((Layout.mk key value marked).condition.getD []).filter isBrace := by
  by_cases hm : marked = []
  · have hnone : (Layout.mk key value marked).condition = none := if_pos hm
    rw [hnone, hm]
    exact ⟨by simp, by simp, rfl⟩
  · obtain ⟨condition, ⟨v, w, hspell, hv, _, hw, _⟩, hne, htrimmed, hsome, hmem⟩ :=
      h.condition hl hlast hm key
    rw [hsome, hspell]
    refine ⟨by simp [hm], ?_, ?_⟩
    · intro c hc
      obtain rfl : condition = c := by simpa using hc
      exact ⟨hne, htrimmed, hmem⟩
    · have hif : ('i' :: 'f' :: w).filter isBrace = w.filter isBrace := by simp [isBrace]
      rw [List.filter_append, List.filter_append, hif, filter_isBrace_blanks hv,
        filter_isBrace_blanks hw]
      rfl

theorem Ends.splits {key : Option (List Lexeme)} {value marked : List Lexeme}
    (h : Ends key.isSome value marked) (hl : Lexed closer? (value ++ marked))
    (hlast : ∀ c ∈ (spell (value ++ marked)).getLast?, isBlank c = false)
    (hb : key.isSome = true → ∃ b ∈ (spell (value ++ marked)).head?, isBlank b = true)
    (hinert : ∀ lexeme ∈ value ++ marked, lexeme.isUnclosed = false ∧ lexeme ≠ .single ',')
    (hkey : ∀ k ∈ key, KeyPart (trim (spell k)))
    (hfilled : trim (spell value) = [] → key ≠ none ∧ marked ≠ []) (span : Span) :
    Separable ((Layout.mk key value marked).raw span) ∧
      ((∀ lexeme ∈ value ++ marked, Closed closer? lexeme) → Whole (trim (spell value)) ∧
        ∀ condition ∈ (Layout.mk key value marked).condition, Whole condition) ∧
      (spell (value ++ marked)).filter isBrace =
        (trim (spell value) ++ (Layout.mk key value marked).condition.getD []).filter isBrace := by
  obtain ⟨hspell, hvalue⟩ := h.value_eq hl hlast
  obtain ⟨hiff, hcondition, hbraces⟩ := h.condition_iff hl hlast key
  have hmem : ∀ lexeme ∈ Lexeme.read closer? (trim (spell value)), lexeme ∈ value := by
    intro lexeme hlexeme
    rw [hvalue]
    exact List.mem_append_right _ hlexeme
  refine ⟨?_, ?_, ?_⟩
  · exact
      { key := by
          intro k hk
          obtain ⟨lexemes, hlexemes, rfl⟩ := Option.map_eq_some_iff.mp hk
          exact hkey lexemes hlexemes
        trimmed := trimmed_trim _
        inert := fun lexeme hlexeme => hinert lexeme (List.mem_append_left _ (hmem lexeme hlexeme))
        whole := fun hne lexeme hlexeme =>
          hl.of_append.2 (hiff.mp hne) lexeme (hmem lexeme hlexeme)
        filled := by
          intro hnil
          obtain ⟨hsome, hm⟩ := hfilled hnil
          exact ⟨by simpa [Layout.raw] using hsome, hiff.mpr hm⟩
        sits := by
          intro r hr
          have hkeyed : ((Layout.mk key value marked).raw span).isKeyed = key.isSome :=
            Option.isSome_map
          rw [hkeyed]
          exact h.sits hl hlast hb fun hne => ⟨hiff.mp (hr hne).1, (hr hne).2⟩
        condition := by
          intro condition hc
          obtain ⟨hne, htrimmed, hmarked⟩ := hcondition condition hc
          exact ⟨hne, htrimmed, fun lexeme hlexeme =>
            hinert lexeme (List.mem_append_right _ (hmarked lexeme hlexeme))⟩ }
  · intro hclosed
    refine ⟨fun lexeme hlexeme => hclosed lexeme (List.mem_append_left _ (hmem lexeme hlexeme)), ?_⟩
    intro condition hc lexeme hlexeme
    exact hclosed lexeme (List.mem_append_right _ ((hcondition condition hc).2.2 lexeme hlexeme))
  · rw [Lexeme.spell_append, hspell, List.filter_append, List.filter_append, hbraces,
      filter_isBrace_blanks (blanks_leadingBlanks _), List.nil_append, ← List.filter_append,
      ← hspell]

theorem keyPart_trim {key rest : List Lexeme}
    (hl : Lexed closer? (key ++ .single ':' :: rest))
    (hhead : ∀ c ∈ (spell (key ++ .single ':' :: rest)).head?, isBlank c = false)
    (hinert : ∀ lexeme ∈ key, lexeme.isUnclosed = false ∧ lexeme ≠ .single ',')
    (hq : Quiet (stops false) key (':' :: spell rest)) :
    KeyPart (trim (spell key)) ∧
      (spell key).filter isBrace = (trim (spell key)).filter isBrace := by
  have hstart : trimStart (spell key) = spell key := by
    apply trimStart_eq_self
    intro c hc
    apply hhead c
    rw [Lexeme.spell_append]
    exact List.mem_head?_append_of_mem_head? hc
  obtain ⟨w, hw, hspell⟩ := exists_trimEnd (trimStart (spell key))
  have htrimmed := trimmed_trim (spell key)
  rw [← trim, hstart] at hspell
  generalize trim (spell key) = k at hspell htrimmed
  have hclosed := hl.of_append.2 (by simp)
  have hkey := Lexeme.eq_read_append bracketing_closer? hclosed hspell hw
  have hmem : ∀ lexeme ∈ Lexeme.read closer? k, lexeme ∈ key := by
    intro lexeme hlexeme
    rw [hkey]
    exact List.mem_append_left _ hlexeme
  refine ⟨?_, ?_⟩
  · refine ⟨htrimmed, fun l h => hclosed l (hmem l h), fun l h => hinert l (hmem l h), ?_⟩
    intro r
    rw [hkey] at hq
    refine quiet_stops (Lexeme.lexed_read bracketing_closer? k) ?_ ?_ (by simp)
      (Lexeme.quiet_append.mp hq).1
    · rw [Lexeme.spell_read]
      exact htrimmed.last
    · intro b hb hblank
      obtain rfl : ':' = b := by simpa using hb
      exact absurd hblank (by decide)
  · rw [hspell, List.filter_append, filter_isBrace_blanks hw, List.append_nil]

/-- An empty value behind a key has a condition, or a blank would end the entry. -/
theorem Ends.marked_ne_nil {keyed : Bool} {value marked : List Lexeme}
    (h : Ends keyed value marked) (hl : Lexed closer? (value ++ marked))
    (hlast : ∀ c ∈ (spell (value ++ marked)).getLast?, isBlank c = false)
    (hb : ∃ b ∈ (spell (value ++ marked)).head?, isBlank b = true)
    (hnil : trim (spell value) = []) : marked ≠ [] := by
  rintro rfl
  have hspell := (h.value_eq hl hlast).1
  rw [hnil, List.append_nil] at hspell
  have hblanks := blanks_leadingBlanks (spell value)
  rw [← hspell] at hblanks
  obtain ⟨b, hb, _⟩ := hb
  rw [List.append_nil] at hb hlast
  rw [eq_nil_of_blanks hblanks hlast] at hb
  cases hb

theorem Ends.value_ne_nil {keyed : Bool} {value marked : List Lexeme}
    (h : Ends keyed value marked) (hl : Lexed closer? (value ++ marked))
    (ht : Trimmed (spell (value ++ marked))) (hne : spell (value ++ marked) ≠ []) :
    trim (spell value) ≠ [] := by
  intro hnil
  have hspell := (h.value_eq hl ht.last).1
  rw [hnil, List.append_nil] at hspell
  have hblanks := blanks_leadingBlanks (spell value)
  rw [← hspell] at hblanks
  have hhead := ht.head
  rw [Lexeme.spell_append] at hhead hne
  cases hv : spell value with
  | cons c t =>
    rw [hv] at hblanks hhead
    have hblank := hhead c rfl
    rw [hblanks c (by simp)] at hblank
    cases hblank
  | nil =>
    rw [hv, List.nil_append] at hhead hne
    have hm : marked ≠ [] := by
      rintro rfl
      exact hne rfl
    obtain ⟨b, hb, hblank⟩ := head?_of_marks (h.begins hm)
    rw [hhead b hb] at hblank
    cases hblank

theorem LaidOut.splits {lexemes : List Lexeme} {l : Layout} (h : LaidOut lexemes l)
    (hl : Lexed closer? lexemes) (ht : Entry (spell lexemes)) (span : Span) :
    Splits (spell lexemes) (l.raw span) := by
  have hread := hl.read_spell bracketing_closer?
  have hinert : ∀ lexeme ∈ lexemes, lexeme.isUnclosed = false ∧ lexeme ≠ .single ',' := by
    intro lexeme hlexeme
    rw [← hread] at hlexeme
    exact ht.inert lexeme hlexeme
  obtain ⟨_, hrest, hlast⟩ := h.ends hl ht.trimmed.last
  cases h with
  | @keyed key value marked hk hb h =>
    obtain ⟨hkey, hbraces⟩ := keyPart_trim hl ht.trimmed.head
      (fun l hl => hinert l (List.mem_append_left _ hl)) hk
    obtain ⟨hseparable, hwhole, hbraces'⟩ := @Ends.splits (some key) value marked h hrest hlast
      (fun _ => hb) (fun l hl => hinert l (List.mem_append_right _ (List.mem_cons_of_mem _ hl)))
      (by simpa using hkey) (fun hnil => ⟨by simp, h.marked_ne_nil hrest hlast hb hnil⟩) span
    refine ⟨hseparable, ?_, ?_⟩
    · intro hclosed
      rw [Whole, hread] at hclosed
      exact hwhole fun l hl => hclosed l (List.mem_append_right _ (List.mem_cons_of_mem _ hl))
    · have hcolon : (spell (Lexeme.single ':' :: (value ++ marked))).filter isBrace =
          (spell (value ++ marked)).filter isBrace := rfl
      rw [Lexeme.spell_append, List.filter_append, hcolon, hbraces, hbraces', ← List.filter_append,
        ← List.append_assoc]
      rfl
  | @plain value marked h =>
    have hfilled := h.value_ne_nil hl ht.trimmed ht.ne_nil
    obtain ⟨hseparable, hwhole, hbraces⟩ := @Ends.splits none value marked h hl ht.trimmed.last
      (by simp) hinert (by simp) (fun hnil => absurd hnil hfilled) span
    refine ⟨hseparable, ?_, hbraces⟩
    intro hclosed
    rw [Whole, hread] at hclosed
    exact hwhole hclosed

/-- Every entry is laid out as an item whose parts can be told apart. -/
theorem splits_of_entry {text : Text} (h : Entry text) (span : Span) :
    Splits text ((layout (Lexeme.read closer? text)).raw span) := by
  have hl := Lexeme.lexed_read bracketing_closer? text
  have hs := (laidOut_layout hl).splits hl (by rwa [Lexeme.spell_read]) span
  rwa [Lexeme.spell_read] at hs

end Item

end Stencil
