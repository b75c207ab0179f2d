import Stencil.Proofs.Marker
import Stencil.Proofs.Segment

/-!
# The layout of an item

The lexemes of an item are laid out as a key, a value and a condition by the first
places where a separator begins. The layout knows no offsets, and reading an item
whose groups all close gives what its layout tells: nothing is refused and no
request to the source can fail.
-/

set_option autoImplicit false

namespace Stencil

namespace Lexeme

def breakAt (stop : Text → Bool) : List Lexeme → List Lexeme × List Lexeme
  | [] => ([], [])
  | lexeme :: rest =>
    if stop (spell (lexeme :: rest)) then ([], lexeme :: rest)
    else (lexeme :: (breakAt stop rest).1, (breakAt stop rest).2)

def Quiet (stop : Text → Bool) : List Lexeme → Text → Prop
  | [], _ => True
  | lexeme :: rest, t => stop (spell (lexeme :: rest) ++ t) = false ∧ Quiet stop rest t

theorem breakAt_eq_iff {stop : Text → Bool} {lexemes before after : List Lexeme} :
    breakAt stop lexemes = (before, after) ↔
      lexemes = before ++ after ∧ Quiet stop before (spell after) ∧
        (after ≠ [] → stop (spell after) = true) := by
  induction lexemes generalizing before with
  | nil =>
    constructor
    · intro h
      obtain ⟨rfl, rfl⟩ : [] = before ∧ [] = after := by simpa [breakAt] using h
      exact ⟨rfl, trivial, by simp⟩
    · rintro ⟨h, _, _⟩
      obtain ⟨rfl, rfl⟩ := List.append_eq_nil_iff.mp h.symm
      rfl
  | cons lexeme rest ih =>
    by_cases hs : stop (spell (lexeme :: rest)) = true
    · rw [breakAt, if_pos hs]
      constructor
      · intro h
        obtain ⟨rfl, rfl⟩ : [] = before ∧ lexeme :: rest = after := by simpa using h
        exact ⟨rfl, trivial, fun _ => hs⟩
      · rintro ⟨h, hq, _⟩
        cases before with
        | nil => rw [h, List.nil_append]
        | cons first before =>
          obtain ⟨rfl, rfl⟩ : lexeme = first ∧ rest = before ++ after := by simpa using h
          have := hq.1
          rw [← spell_append, List.cons_append, hs] at this
          cases this
    · rw [breakAt, if_neg hs]
      constructor
      · intro h
        obtain ⟨rfl, rfl⟩ : lexeme :: (breakAt stop rest).1 = before ∧
          (breakAt stop rest).2 = after := by simpa using h
        obtain ⟨hr, hq, ha⟩ := ih.mp rfl
        refine ⟨by rw [List.cons_append, ← hr], ⟨?_, hq⟩, ha⟩
        rw [← spell_append, List.cons_append, ← hr]
        simpa using hs
      · rintro ⟨h, hq, ha⟩
        cases before with
        | nil =>
          rw [List.nil_append] at h
          rw [h] at hs
          exact absurd (ha (by simp [← h])) hs
        | cons first before =>
          obtain ⟨rfl, hr⟩ : lexeme = first ∧ rest = before ++ after := by simpa using h
          rw [ih.mpr ⟨hr, hq.2, ha⟩]

theorem quiet_append {stop : Text → Bool} {lexemes rest : List Lexeme} {t : Text} :
    Quiet stop (lexemes ++ rest) t ↔ Quiet stop lexemes (spell rest ++ t) ∧ Quiet stop rest t := by
  induction lexemes with
  | nil => simp [Quiet]
  | cons lexeme lexemes ih => simp [Quiet, ih, and_assoc]

end Lexeme

namespace Item

open Lexeme (spell breakAt)

structure Layout where
  key : Option (List Lexeme)
  value : List Lexeme
  marked : List Lexeme

def layout (lexemes : List Lexeme) : Layout :=
  match breakAt (stops false) lexemes with
  | (before, after) =>
    if endsKey (spell after) then
      match breakAt (stops true) after.tail with
      | (value, marked) => ⟨some before, value, marked⟩
    else ⟨none, before, after⟩

theorem layout_keyed {lexemes before rest value marked : List Lexeme} {colon : Lexeme}
    (hb : breakAt (stops false) lexemes = (before, colon :: rest))
    (hk : endsKey (spell (colon :: rest)) = true)
    (hr : breakAt (stops true) rest = (value, marked)) :
    layout lexemes = ⟨some before, value, marked⟩ := by
  simp only [layout, hb, hk, if_true, List.tail_cons, hr]

theorem layout_plain {lexemes before after : List Lexeme}
    (hb : breakAt (stops false) lexemes = (before, after)) (hk : ¬ endsKey (spell after) = true) :
    layout lexemes = ⟨none, before, after⟩ := by
  simp only [layout, hb, if_neg hk]

def settle (item : Item) : Item :=
  match stripQuestion? item.value with
  | some value => ⟨value, item.key, some (item.condition.getD existence), item.span⟩
  | none => item

def markerLength (t : Text) : Nat := (Pattern.conditionMarker t).getD 0

namespace Layout

def valueText (layout : Layout) : Text := trim (spell layout.value)

def condition (layout : Layout) : Option Text :=
  if layout.marked = [] then none
  else
    let text := trim ((spell layout.marked).drop (markerLength (spell layout.marked)))
    if text.isEmpty then none else some text

def raw (layout : Layout) (span : Span) : Item :=
  ⟨layout.valueText, layout.key.map fun key => trim (spell key), layout.condition, span⟩

def item (layout : Layout) (span : Span) : Item := (layout.raw span).settle

end Layout

def markerAt (position : Nat) (marked : List Lexeme) : Option Span :=
  if marked = [] then none
  else some ⟨position, byteSize ((spell marked).take (markerLength (spell marked)))⟩

theorem separators_cons {lexeme : Lexeme} (hu : lexeme.isUnclosed = false) (keyed : Bool)
    (position : Nat) (rest : List Lexeme) :
    separators keyed position (spell (lexeme :: rest)) (lexeme :: rest) =
      if !keyed && endsKey (spell (lexeme :: rest)) then
        (separators true (position + lexeme.size) (spell rest) rest).map
          fun others => { others with colon := some position }
      else if marks (spell (lexeme :: rest)) then
        .ok ⟨none, markerAt position (lexeme :: rest)⟩
      else separators keyed (position + lexeme.size) (spell rest) rest := by
  have hdrop : (spell (lexeme :: rest)).drop lexeme.text.length = spell rest := by
    rw [Lexeme.spell_cons, List.drop_left]
  have hstep : separators keyed position (spell (lexeme :: rest)) (lexeme :: rest) =
      if !keyed && endsKey (spell (lexeme :: rest)) then
        (separators true (position + lexeme.size)
          ((spell (lexeme :: rest)).drop lexeme.text.length) rest).bind
          fun others => .ok { others with colon := some position }
      else (Pattern.conditionMarker (spell (lexeme :: rest))).elim
        (separators keyed (position + lexeme.size)
          ((spell (lexeme :: rest)).drop lexeme.text.length) rest)
        fun n => .ok ⟨none, some ⟨position, byteSize ((spell (lexeme :: rest)).take n)⟩⟩ := by
    cases lexeme with
    | unclosed => simp [Lexeme.isUnclosed] at hu
    | _ =>
      rw [separators]
      · cases Pattern.conditionMarker _ <;> rfl
      · simp
  rw [hstep, hdrop]
  split
  · cases separators true (position + lexeme.size) (spell rest) rest <;> rfl
  · rw [marks]
    cases hm : Pattern.conditionMarker (spell (lexeme :: rest)) with
    | none => rfl
    | some n => simp [markerAt, markerLength, hm, -Lexeme.spell_cons]

theorem separators_true {lexemes value marked : List Lexeme}
    (hu : ∀ lexeme ∈ lexemes, lexeme.isUnclosed = false) (position : Nat)
    (h : breakAt (stops true) lexemes = (value, marked)) :
    separators true position (spell lexemes) lexemes =
      .ok ⟨none, markerAt (position + byteSize (spell value)) marked⟩ := by
  induction lexemes generalizing position value with
  | nil =>
    obtain ⟨rfl, rfl⟩ : [] = value ∧ [] = marked := by simpa [breakAt] using h
    rfl
  | cons lexeme rest ih =>
    rw [separators_cons (hu lexeme (by simp)), if_neg (by simp)]
    rw [breakAt] at h
    by_cases hm : marks (spell (lexeme :: rest)) = true
    · rw [if_pos (by simp [stops, hm, -Lexeme.spell_cons])] at h
      obtain ⟨rfl, rfl⟩ : [] = value ∧ lexeme :: rest = marked := by simpa using h
      rw [if_pos hm]
      rfl
    · rw [if_neg (by simp [stops, hm, -Lexeme.spell_cons])] at h
      obtain ⟨rfl, rfl⟩ : lexeme :: (breakAt (stops true) rest).1 = value ∧
        (breakAt (stops true) rest).2 = marked := by simpa using h
      rw [if_neg hm, ih (fun l hl => hu l (by simp [hl])) _ rfl]
      simp [Lexeme.size, Nat.add_assoc]

/-- The separators found are those of the layout. -/
theorem separators_false {lexemes before after : List Lexeme}
    (hu : ∀ lexeme ∈ lexemes, lexeme.isUnclosed = false) (position : Nat)
    (h : breakAt (stops false) lexemes = (before, after)) :
    separators false position (spell lexemes) lexemes =
      if endsKey (spell after) then
        (separators true (position + byteSize (spell before) + (after.headD (.single ':')).size)
          (spell after.tail) after.tail).map
            fun others => { others with colon := some (position + byteSize (spell before)) }
      else .ok ⟨none, markerAt (position + byteSize (spell before)) after⟩ := by
  induction lexemes generalizing position before with
  | nil =>
    obtain ⟨rfl, rfl⟩ : [] = before ∧ [] = after := by simpa [breakAt] using h
    rfl
  | cons lexeme rest ih =>
    rw [separators_cons (hu lexeme (by simp))]
    rw [breakAt] at h
    by_cases hs : stops false (spell (lexeme :: rest)) = true
    · rw [if_pos hs] at h
      obtain ⟨rfl, rfl⟩ : [] = before ∧ lexeme :: rest = after := by simpa using h
      by_cases hk : endsKey (spell (lexeme :: rest)) = true
      · rw [if_pos (by simp [hk, -Lexeme.spell_cons]), if_pos hk]
        rfl
      · have hm : marks (spell (lexeme :: rest)) = true := by
          simpa [stops, hk, -Lexeme.spell_cons] using hs
        rw [if_neg (by simp [hk, -Lexeme.spell_cons]), if_neg hk, if_pos hm]
        rfl
    · obtain ⟨hk, hm⟩ : endsKey (spell (lexeme :: rest)) = false ∧
        marks (spell (lexeme :: rest)) = false := by
        simpa [stops, -Lexeme.spell_cons] using hs
      rw [if_neg hs] at h
      obtain ⟨rfl, rfl⟩ : lexeme :: (breakAt (stops false) rest).1 = before ∧
        (breakAt (stops false) rest).2 = after := by simpa using h
      rw [if_neg (by simp [hk, -Lexeme.spell_cons]), if_neg (by simp [hm, -Lexeme.spell_cons]),
        ih (fun l hl => hu l (by simp [hl])) _ rfl]
      simp [Lexeme.size, Nat.add_assoc]

theorem readCondition_eq (layout : Layout) (position : Nat) :
    readCondition ⟨position, spell layout.marked⟩ (position + byteSize (spell layout.marked))
      (markerAt position layout.marked) = .ok layout.condition := by
  by_cases hm : layout.marked = []
  · simp [markerAt, Layout.condition, hm, readCondition]
  · rw [markerAt, Layout.condition, if_neg hm, if_neg hm]
    generalize markerLength (spell layout.marked) = n
    have hsplit := List.take_append_drop n (spell layout.marked)
    generalize (spell layout.marked).take n = marker at hsplit ⊢
    generalize (spell layout.marked).drop n = rest at hsplit ⊢
    have hrest := Place.readTo_append (position + byteSize marker) rest []
    rw [List.append_nil] at hrest
    rw [← hsplit, readCondition]
    simp only [Span.stop, Place.readTo_append, bind, Except.bind, byteSize_append]
    rw [← Nat.add_assoc, hrest]
    rfl

theorem readTo_value (layout : Layout) (position : Nat) :
    Place.readTo ⟨position, spell layout.value ++ spell layout.marked⟩
        (((markerAt (position + byteSize (spell layout.value)) layout.marked).map Span.start).getD
          (position + byteSize (spell layout.value) + byteSize (spell layout.marked))) =
      .ok (spell layout.value,
        ⟨position + byteSize (spell layout.value), spell layout.marked⟩) := by
  by_cases hm : layout.marked = []
  · simp only [markerAt, hm, if_pos, Option.map_none, Option.getD_none, Lexeme.spell_nil,
      byteSize_nil, Nat.add_zero, Place.readTo_append]
  · simp only [markerAt, hm, if_false, Option.map_some, Option.getD_some, Place.readTo_append]

theorem read_of_parts {text : Text} {span : Span} {layout : Layout} {colon : Option Nat}
    {position : Nat}
    (hs : separators false span.start text (Lexeme.read closer? text) =
      .ok ⟨colon, markerAt (position + byteSize (spell layout.value)) layout.marked⟩)
    (hk : readKey ⟨span.start, text⟩ colon =
      .ok (layout.key.map (fun key => trim (spell key)),
        ⟨position, spell layout.value ++ spell layout.marked⟩))
    (hstop : span.stop =
      position + byteSize (spell layout.value) + byteSize (spell layout.marked)) :
    read ⟨text, span⟩ = .ok (layout.item span) := by
  have hv := readTo_value layout position
  have hc := readCondition_eq layout (position + byteSize (spell layout.value))
  simp only [read, hs, hk, hstop, hv, hc, check_ok, bind, Except.bind]
  rw [Layout.item, settle, Layout.raw, Layout.valueText]
  cases stripQuestion? (trim (spell layout.value)) <;> rfl

/-- Reading an item whose groups all close gives what its layout tells. -/
theorem read_eq {text : Text} {span : Span} (hspan : span.length = byteSize text)
    (hu : ∀ lexeme ∈ Lexeme.read closer? text, lexeme.isUnclosed = false) :
    read ⟨text, span⟩ = .ok ((layout (Lexeme.read closer? text)).item span) := by
  obtain ⟨start, length⟩ := span
  obtain rfl : length = byteSize text := hspan
  rcases hb : breakAt (stops false) (Lexeme.read closer? text) with ⟨before, after⟩
  obtain ⟨hl, _, _⟩ := Lexeme.breakAt_eq_iff.mp hb
  have hspell := Lexeme.spell_read closer? text
  have hs := separators_false hu start hb
  rw [hspell] at hs
  rw [hl, Lexeme.spell_append] at hspell
  by_cases hk : endsKey (spell after) = true
  · obtain ⟨b, t, ht, _⟩ := endsKey_iff.mp hk
    have hlexed := Lexeme.lexed_read bracketing_closer? text
    rw [hl] at hlexed
    obtain hafter := hlexed.of_append.1.eq_single_cons bracketing_closer? ht rfl rfl
    generalize Lexeme.read closer? (b :: t) = rest at hafter
    subst hafter
    rcases hr : breakAt (stops true) rest with ⟨value, marked⟩
    obtain ⟨rfl, _, _⟩ := Lexeme.breakAt_eq_iff.mp hr
    have hu' : ∀ lexeme ∈ value ++ marked, lexeme.isUnclosed = false :=
      fun l h => hu l (by rw [hl]; simp [List.mem_append.mp h])
    rw [if_pos hk, List.tail_cons, separators_true hu' _ hr] at hs
    rw [layout_keyed hb hk hr]
    rw [Lexeme.spell_cons, Lexeme.spell_append] at hspell
    refine read_of_parts hs ?_ ?_
    · have hkey := Place.readTo_append start (spell before)
        ([':'] ++ (spell value ++ spell marked))
      have hcolon := Place.readTo_append (start + byteSize (spell before)) [':']
        (spell value ++ spell marked)
      rw [← hspell, readKey]
      simp only [show (Lexeme.single ':').text = [':'] from rfl, hkey, bind, Except.bind]
      rw [show start + byteSize (spell before) + 1 =
        start + byteSize (spell before) + byteSize [':'] from rfl, hcolon]
      rfl
    · rw [Span.stop, ← hspell]
      simp only [byteSize_append, List.headD_cons, Lexeme.size, Nat.add_assoc]
  · rw [if_neg hk] at hs
    rw [layout_plain hb hk]
    refine read_of_parts hs ?_ ?_
    · rw [hspell]
      rfl
    · rw [Span.stop, ← hspell, byteSize_append, Nat.add_assoc]

end Item

end Stencil
