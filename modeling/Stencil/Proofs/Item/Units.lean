import Stencil.Proofs.Item.Value
import Stencil.Proofs.Segment.Slice
import Stencil.Proofs.Units

/-!
# Items by units

The units of an entry tell the parts of its item, without a layout. The key ends at the
first unit that is a colon before a blank, if no marker begins at an earlier one. The
condition is all that follows the first marker, and the value is the text between.
-/

set_option autoImplicit false

namespace Stencil

namespace Lexeme

theorem flatten_drop (lexemes : List Lexeme) (n : Nat) :
    ((lexemes.map text).drop n).flatten = spell (lexemes.drop n) := by
  rw [← List.map_drop]
  rfl

theorem Quiet.mono {stop stop' : Text → Bool} (hs : ∀ t, stop' t = true → stop t = true)
    {lexemes : List Lexeme} {t : Text} (h : Quiet stop lexemes t) : Quiet stop' lexemes t := by
  induction lexemes with
  | nil => trivial
  | cons lexeme rest ih =>
    refine ⟨?_, ih h.2⟩
    cases hstop : stop' (spell (lexeme :: rest) ++ t) with
    | false => rfl
    | true => rw [← h.1, hs _ hstop]

theorem Quiet.drop {stop : Text → Bool} {before after : List Lexeme}
    (h : Quiet stop before (spell after)) {n : Nat} (hn : n < before.length) :
    stop (spell ((before ++ after).drop n)) = false := by
  induction before generalizing n with
  | nil => cases hn
  | cons lexeme rest ih =>
    cases n with
    | zero =>
      rw [List.drop_zero, spell_append]
      exact h.1
    | succ n => exact ih h.2 (Nat.lt_of_succ_lt_succ hn)

section

variable {P : Text → Prop} {stop : Text → Bool} {before after : List Lexeme}

theorem Quiet.not_drop (h : Quiet stop before (spell after)) (hP : ∀ t, P t → stop t = true)
    {n : Nat} (hn : n < before.length) : ¬ P (((before ++ after).map text).drop n).flatten := by
  intro hp
  rw [flatten_drop] at hp
  have hquiet := h.drop hn
  rw [hP _ hp] at hquiet
  cases hquiet

theorem Quiet.le_of_firstAt (h : Quiet stop before (spell after)) (hP : ∀ t, P t → stop t = true)
    {n : Nat} (hn : FirstAt P ((before ++ after).map text) n) : before.length ≤ n :=
  Nat.le_of_not_lt fun hlt => h.not_drop hP hlt hn.holds

/-- What begins nowhere in lexemes begins first where they end, if the text goes on there. -/
theorem Quiet.firstAt_iff (h : Quiet stop before (spell after)) (hP : ∀ t, P t → stop t = true)
    (hnil : ¬ P []) (ha : after ≠ [] → P (spell after)) {n : Nat} :
    FirstAt P ((before ++ after).map text) n ↔ after ≠ [] ∧ n = before.length := by
  have hfirst : after ≠ [] → FirstAt P ((before ++ after).map text) before.length := by
    intro hne
    refine ⟨?_, fun k hk => h.not_drop hP hk⟩
    rw [flatten_drop, List.drop_left]
    exact ha hne
  constructor
  · intro hn
    have hne : after ≠ [] := by
      rintro rfl
      have hp := hn.holds
      rw [flatten_drop, List.append_nil, List.drop_of_length_le (h.le_of_firstAt hP hn)] at hp
      exact hnil hp
    exact ⟨hne, hn.unique (hfirst hne)⟩
  · rintro ⟨hne, rfl⟩
    exact hfirst hne

end

end Lexeme

namespace Item

open Lexeme (spell Quiet Lexed)

def MarkerAhead (t : Text) : Prop := ∃ rest, IsMarked t rest

def ColonAhead (t : Text) : Prop := ∃ b rest, t = ':' :: b :: rest ∧ isBlank b = true

structure KeyEnds (units : List Text) (c : Nat) : Prop where
  colon : FirstAt ColonAhead units c
  unmarked : ∀ m, FirstAt MarkerAhead units m → c < m

inductive KeyOf (units : List Text) : Nat → Option Text → Prop
  | keyed {c : Nat} (h : KeyEnds units c) : KeyOf units (c + 1) (some (trim (units.take c).flatten))
  | unkeyed (h : ∀ c, ¬ KeyEnds units c) : KeyOf units 0 none

inductive ConditionOf (units : List Text) : Nat → Option Text → Prop
  | marked {m : Nat} {condition : Text} (h : FirstAt MarkerAhead units m)
      (hc : IsMarked (units.drop m).flatten condition) : ConditionOf units m (some condition)
  | unmarked (h : ∀ m, ¬ FirstAt MarkerAhead units m) : ConditionOf units units.length none

/-- The item has this value and this condition, but for one question mark at the end of the value,
which counts as a condition if there is no other. -/
structure Settles (item : Item) (text : Text) (given : Option Text) : Prop where
  value : item.value = if text.getLast? = some '?' then text.dropLast else text
  condition : item.condition =
    given.or (if text.getLast? = some '?' then some existence else none)

def CutFrom (units : List Text) (item : Item) : Prop :=
  ∃ start stop given, KeyOf units start item.key ∧ ConditionOf units stop given ∧
    Settles item (trim ((units.take stop).drop start).flatten) given

theorem markerAhead_iff {t : Text} : MarkerAhead t ↔ marks t = true :=
  marks_iff_exists_isMarked.symm

theorem not_markerAhead_nil : ¬ MarkerAhead [] := by
  rintro ⟨_, _, _, hnil, _⟩
  simp at hnil

theorem stops_of_colonAhead {t : Text} (h : ColonAhead t) : stops false t = true := by
  have hends : endsKey t = true := endsKey_iff.mpr h
  rw [stops, hends]
  rfl

theorem not_colonAhead_nil : ¬ ColonAhead [] := by
  rintro ⟨_, _, hnil, _⟩
  cases hnil

theorem settles_settle (item : Item) : Settles item.settle item.value item.condition := by
  rw [settle, stripQuestion?]
  by_cases hq : item.value.getLast? = some '?'
  · rw [if_pos hq]
    refine ⟨by rw [if_pos hq], ?_⟩
    rw [if_pos hq]
    cases item.condition <;> rfl
  · rw [if_neg hq]
    refine ⟨by rw [if_neg hq], ?_⟩
    rw [if_neg hq, Option.or_none]

theorem key_settle (item : Item) : item.settle.key = item.key := by
  rcases settle_cases item with hsame | ⟨_, _, hstripped⟩
  · rw [hsame]
  · rw [hstripped]

def Layout.lead (l : Layout) : List Lexeme :=
  match l.key with
  | some key => key ++ [.single ':']
  | none => []

namespace LaidOut

variable {lexemes : List Lexeme} {l : Layout}

theorem eq_append (h : LaidOut lexemes l) : lexemes = l.lead ++ l.value ++ l.marked := by
  cases h with
  | keyed => simp [Layout.lead]
  | plain => rfl

theorem begins (h : LaidOut lexemes l) : l.marked ≠ [] → marks (spell l.marked) = true := by
  cases h with
  | keyed _ _ h => exact h.begins
  | plain h => exact h.begins

theorem quiet_marks (h : LaidOut lexemes l) : Quiet marks (l.lead ++ l.value) (spell l.marked) := by
  have hstops : ∀ keyed t, marks t = true → stops keyed t = true :=
    fun keyed _ ht => stops_of_marks ht keyed
  cases h with
  | @keyed key value marked hk _ h =>
    refine Lexeme.quiet_append.mpr ⟨Lexeme.quiet_append.mpr ⟨?_, ?_⟩, h.quiet.mono (hstops true)⟩
    · have hkey := hk.mono (hstops false)
      rw [Lexeme.spell_append] at hkey
      exact hkey
    · exact ⟨marks_eq_false (by simpa [Lexeme.text] using by decide), trivial⟩
  | plain h => exact h.quiet.mono (hstops false)

theorem firstAt_marker_iff (h : LaidOut lexemes l) {m : Nat} :
    FirstAt MarkerAhead (lexemes.map Lexeme.text) m ↔
      l.marked ≠ [] ∧ m = (l.lead ++ l.value).length := by
  rw [h.eq_append]
  apply h.quiet_marks.firstAt_iff
  · exact fun _ ht => markerAhead_iff.mp ht
  · exact not_markerAhead_nil
  · exact fun hne => markerAhead_iff.mpr (h.begins hne)

theorem not_keyEnds {value marked : List Lexeme} (h : LaidOut lexemes ⟨none, value, marked⟩)
    (c : Nat) : ¬ KeyEnds (lexemes.map Lexeme.text) c := by
  intro hc
  have hmarker := @LaidOut.firstAt_marker_iff _ _ h
  cases h with
  | plain h =>
    by_cases hm : marked = []
    · have hends := h.quiet.firstAt_iff (fun _ => stops_of_colonAhead) not_colonAhead_nil
        (fun hne => absurd hm hne) |>.mp hc.colon
      exact hends.1 hm
    · have hlt := hc.unmarked _ (hmarker.mpr ⟨hm, rfl⟩)
      have hle := h.quiet.le_of_firstAt (fun _ => stops_of_colonAhead) hc.colon
      exact Nat.not_le_of_lt hlt hle

theorem keyEnds_iff (h : LaidOut lexemes l) {c : Nat} :
    KeyEnds (lexemes.map Lexeme.text) c ↔ ∃ key, l.key = some key ∧ c = key.length := by
  have hmarker := @LaidOut.firstAt_marker_iff _ _ h
  cases h with
  | @keyed key value marked hk hb h =>
    obtain ⟨b, hb, hblank⟩ := hb
    obtain ⟨rest, hrest⟩ := List.head?_eq_some_iff.mp hb
    have hcolon : ColonAhead (spell (.single ':' :: (value ++ marked))) :=
      ⟨b, rest, by rw [Lexeme.spell_cons, hrest]; rfl, hblank⟩
    have hfirst := @Lexeme.Quiet.firstAt_iff _ _ _ (.single ':' :: (value ++ marked)) hk
      (fun _ => stops_of_colonAhead) not_colonAhead_nil (fun _ => hcolon)
    constructor
    · intro hc
      exact ⟨key, rfl, (hfirst.mp hc.colon).2⟩
    · rintro ⟨_, hkey, rfl⟩
      obtain rfl := Option.some.inj hkey
      refine ⟨hfirst.mpr ⟨by simp, rfl⟩, fun m hm => ?_⟩
      rw [(hmarker.mp hm).2]
      simp [Layout.lead]
  | plain h =>
    constructor
    · exact fun hc => absurd hc (LaidOut.not_keyEnds (.plain h) c)
    · rintro ⟨_, hkey, _⟩
      cases hkey

theorem keyOf (h : LaidOut lexemes l) :
    KeyOf (lexemes.map Lexeme.text) l.lead.length (l.key.map fun key => trim (spell key)) := by
  have hends := @LaidOut.keyEnds_iff _ _ h
  have happend := h.eq_append
  rw [Layout.lead] at happend ⊢
  cases hk : l.key with
  | some key =>
    rw [hk, List.append_assoc, List.append_assoc] at happend
    have hkeyed := KeyOf.keyed (hends.mpr ⟨key, hk, rfl⟩)
    rw [← List.map_take, happend, List.take_left] at hkeyed
    rw [happend, List.length_append]
    exact hkeyed
  | none =>
    refine .unkeyed fun c hc => ?_
    obtain ⟨key, hkey, _⟩ := hends.mp hc
    rw [hk] at hkey
    cases hkey

theorem conditionOf (h : LaidOut lexemes l) (hl : Lexed closer? lexemes)
    (hlast : ∀ c ∈ (spell lexemes).getLast?, isBlank c = false) :
    ConditionOf (lexemes.map Lexeme.text) (l.lead ++ l.value).length l.condition := by
  have hmarker := @LaidOut.firstAt_marker_iff _ _ h
  rcases h.condition_cases hl hlast with ⟨hm, hnone⟩ | ⟨condition, hm, hmarked, hsome⟩
  · have hlength : (l.lead ++ l.value).length = (lexemes.map Lexeme.text).length := by
      rw [List.length_map, h.eq_append, hm, List.append_nil]
    rw [hlength, hnone]
    exact .unmarked fun m hfirst => (hmarker.mp hfirst).1 hm
  · rw [hsome]
    refine .marked (hmarker.mpr ⟨hm, rfl⟩) ?_
    rwa [Lexeme.flatten_drop, h.eq_append, List.drop_left]

theorem flatten_between (h : LaidOut lexemes l) :
    (((lexemes.map Lexeme.text).take (l.lead ++ l.value).length).drop l.lead.length).flatten =
      spell l.value := by
  rw [h.eq_append, ← List.map_take, List.take_left, Lexeme.flatten_drop, List.drop_left]

theorem cutFrom (h : LaidOut lexemes l) (hl : Lexed closer? lexemes)
    (hlast : ∀ c ∈ (spell lexemes).getLast?, isBlank c = false) (span : Span) :
    CutFrom (lexemes.map Lexeme.text) (l.item span) := by
  refine ⟨l.lead.length, (l.lead ++ l.value).length, l.condition, ?_, h.conditionOf hl hlast, ?_⟩
  · rw [Layout.item, key_settle]
    exact h.keyOf
  · rw [h.flatten_between]
    exact settles_settle (l.raw span)

end LaidOut

/-- A segment has one list of units, and its item is cut out of them at the first separators. -/
theorem read_by_units {source : Place} {window : Span} {segments : List Segment}
    (h : Segment.splitWithin source window = .ok segments) {segment : Segment}
    (hs : segment ∈ segments) :
    ∃ units, Units segment.text units ∧ (∀ others, Units segment.text others → others = units) ∧
      ∃ item, read segment = .ok item ∧ CutFrom units item := by
  obtain ⟨hentry, hspan⟩ := Segment.entry_of_splitWithin h segment hs
  have hunits := units_of_closed hentry.closed
  refine ⟨_, hunits, fun _ hu => hu.unique hunits, _, read_eq hspan hentry.closed, ?_⟩
  apply (laidOut_text segment.text).cutFrom (Lexeme.lexed_read bracketing_closer? _)
  rw [Lexeme.spell_read]
  exact hentry.trimmed.last

theorem read_by_units_marker_first :
    Segment.splitWithin (Place.start "[k: ] : if  b,'a' if b: c?".toList) ⟨0, 26⟩ =
        .ok [⟨"[k: ] : if  b".toList, ⟨0, 13⟩⟩, ⟨"'a' if b: c?".toList, ⟨14, 12⟩⟩] ∧
      (Units "[k: ] : if  b".toList
          ["[k: ]".toList, [' '], [':'], [' '], ['i'], ['f'], [' '], [' '], ['b']] ∧
        CutFrom ["[k: ]".toList, [' '], [':'], [' '], ['i'], ['f'], [' '], [' '], ['b']]
          ⟨[], some "[k: ]".toList, some ['b'], ⟨0, 13⟩⟩) ∧
      ∃ units, Units "'a' if b: c?".toList units ∧
        CutFrom units ⟨"'a'".toList, none, some "b: c?".toList, ⟨14, 12⟩⟩ := by
  have hsplit : Segment.splitWithin (Place.start "[k: ] : if  b,'a' if b: c?".toList) ⟨0, 26⟩ =
      .ok [⟨"[k: ] : if  b".toList, ⟨0, 13⟩⟩, ⟨"'a' if b: c?".toList, ⟨14, 12⟩⟩] := by
    decide +kernel
  have hunits := @units_of_closed "[k: ] : if  b".toList (by decide +kernel)
  rw [show (Lexeme.read closer? "[k: ] : if  b".toList).map Lexeme.text =
    ["[k: ]".toList, [' '], [':'], [' '], ['i'], ['f'], [' '], [' '], ['b']] by
      decide +kernel] at hunits
  have hread : read ⟨"[k: ] : if  b".toList, ⟨0, 13⟩⟩ =
      .ok ⟨[], some "[k: ]".toList, some ['b'], ⟨0, 13⟩⟩ := by
    decide +kernel
  have hread' : read ⟨"'a' if b: c?".toList, ⟨14, 12⟩⟩ =
      .ok ⟨"'a'".toList, none, some "b: c?".toList, ⟨14, 12⟩⟩ := by
    decide +kernel
  obtain ⟨_, _, hunique, item, hitem, hcut⟩ := read_by_units hsplit List.mem_cons_self
  obtain ⟨units', hunits', _, item', hitem', hcut'⟩ := read_by_units hsplit
    (List.mem_cons_of_mem _ List.mem_cons_self)
  rw [← hunique _ hunits, ← Except.ok.inj (hread.symm.trans hitem)] at hcut
  rw [← Except.ok.inj (hread'.symm.trans hitem')] at hcut'
  exact ⟨hsplit, ⟨hunits, hcut⟩, units', hunits', hcut'⟩

end Item

end Stencil
