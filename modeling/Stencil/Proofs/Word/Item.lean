import Stencil.Proofs.Expression
import Stencil.Proofs.Word.Segment

/-!
# Items in words

The reader of an item as a loop of a cursor that counts in words. It moves over
lexemes to the first place where a separator begins, and there it takes the key or
ends with the condition. So it finds the parts that the layout of the item tells, and
no turn faults.
-/

set_option autoImplicit false

namespace Stencil.Word

open Cursor (ofParts)
open Item (Layout stops marks endsKey layout)
open Lexeme (spell breakAt)

structure Parts where
  key : Option Text
  value : Text
  condition : Option Text

def endsKeyAhead (cursor : Cursor) (parts : Parts) (c : Char) : Except Fault Bool := do
  if c = ':' && parts.key.isNone then return (← cursor.peekNth 1).any isBlank
  return false

def itemTurn (cursor : Cursor) (parts : Parts) : Outcome (Turn Parts Parts) := do
  match ← check cursor.peek with
  | none => return .done parts
  | some c =>
    match closer? c with
    | some closer => overGroup cursor c closer parts
    | none =>
      if ← check (endsKeyAhead cursor parts c) then
        let key ← check cursor.current
        let (_, next) ← check (advance cursor)
        let value ← check next.resetStart.remaining
        return .next next.resetStart ⟨some (trim key), value, parts.condition⟩
      let (marked, _) ← check (matchPrefix cursor .conditionMarker false)
      if marked then
        let value ← check cursor.current
        let (_, next) ← check (matchPrefix cursor .conditionMarker true)
        let condition := trim (← check next.resetStart.skipToEnd.current)
        return .done ⟨parts.key, value, if condition.isEmpty then none else some condition⟩
      return .next (← check (pass cursor)) parts

def readItem (source : Text) (segment : Segment) : Outcome Item := do
  let cursor ← check (within source segment.span)
  let parts ← loop itemTurn cursor ⟨none, segment.text, none⟩
  return Item.settle ⟨trim parts.value, parts.key, parts.condition, segment.span⟩

section

variable {before part ahead after : Text} {parts : Parts}

theorem itemTurn_end : itemTurn (ofParts before part [] after) parts = .ok (.done parts) := by
  rw [itemTurn, Cursor.peek_ofParts]
  rfl

theorem itemTurn_opener {c closer : Char} (hc : closer? c = some closer) :
    itemTurn (ofParts before part (c :: ahead) after) parts =
      overGroup (ofParts before part (c :: ahead) after) c closer parts := by
  rw [itemTurn, Cursor.peek_ofParts, check_ok, ok_bind, List.head?_cons]
  simp only [hc]

theorem endsKeyAhead_eq (c : Char) :
    endsKeyAhead (ofParts before part (c :: ahead) after) parts c =
      .ok (!parts.key.isSome && endsKey (c :: ahead)) := by
  rw [endsKeyAhead, Cursor.peekNth_ofParts]
  by_cases hc : c = ':'
  · cases parts.key <;> cases ahead <;> simp [hc, endsKey]
  · cases parts.key <;> simp [hc, endsKey]

theorem itemTurn_key (hk : endsKey (':' :: ahead) = true) (hnone : parts.key = none)
    (h : byteSize (before ++ part ++ ':' :: ahead ++ after) < offsetLimit) :
    itemTurn (ofParts before part (':' :: ahead) after) parts =
      .ok (.next (ofParts (before ++ (part ++ [':'])) [] ahead after)
        ⟨some (trim part), ahead, parts.condition⟩) := by
  rw [itemTurn, Cursor.peek_ofParts, check_ok, ok_bind, List.head?_cons]
  simp only [show closer? ':' = none from rfl, endsKeyAhead_eq, hk, hnone, advance_cons h, check_ok,
    ok_bind, Cursor.resetStart_ofParts, Cursor.current_ofParts, Cursor.remaining_ofParts]
  rfl

def conditionAfter (t : Text) : Option Text :=
  let condition := trim (t.drop (Item.markerLength t))
  if condition.isEmpty then none else some condition

theorem itemTurn_marked {c : Char} (hc : closer? c = none)
    (hk : (!parts.key.isSome && endsKey (c :: ahead)) = false) (hm : marks (c :: ahead) = true)
    (h : byteSize (before ++ part ++ c :: ahead ++ after) < offsetLimit) :
    itemTurn (ofParts before part (c :: ahead) after) parts =
      .ok (.done ⟨parts.key, part, conditionAfter (c :: ahead)⟩) := by
  obtain ⟨n, hn⟩ := Option.isSome_iff_exists.mp hm
  have hmove := Cursor.moveOver_ofParts before part ((c :: ahead).drop n) after
    ((c :: ahead).take n)
  rw [List.take_append_drop] at hmove
  rw [itemTurn, Cursor.peek_ofParts, check_ok, ok_bind, List.head?_cons]
  simp only [hc, endsKeyAhead_eq, hk, check_ok, ok_bind, matchPrefix_eq h, Cursor.matchPrefix,
    Cursor.remaining_ofParts, hn, Cursor.current_ofParts, pure_eq_ok, if_true, hmove,
    Cursor.resetStart_ofParts, Cursor.skipToEnd_ofParts, List.nil_append]
  rw [conditionAfter, Item.markerLength, hn]
  rfl

theorem itemTurn_pass {c : Char} {part' ahead' : Text} (hc : closer? c = none)
    (hquiet : stops parts.key.isSome (c :: ahead) = false)
    (h : byteSize (before ++ part ++ c :: ahead ++ after) < offsetLimit)
    (hp : pass (ofParts before part (c :: ahead) after) = .ok (ofParts before part' ahead' after)) :
    itemTurn (ofParts before part (c :: ahead) after) parts =
      .ok (.next (ofParts before part' ahead' after) parts) := by
  obtain ⟨hk, hm⟩ := Bool.or_eq_false_iff.mp hquiet
  have hnone : Pattern.conditionMarker (c :: ahead) = none := by
    simpa [marks] using hm
  rw [itemTurn, Cursor.peek_ofParts, check_ok, ok_bind, List.head?_cons]
  simp only [hc, endsKeyAhead_eq, hk, check_ok, ok_bind, matchPrefix_eq h, Cursor.matchPrefix,
    Cursor.remaining_ofParts, hnone, hp]
  rfl

theorem loop_quiet (h : byteSize (before ++ part ++ ahead ++ after) < offsetLimit) {lexeme : Lexeme}
    {rest : List Lexeme} (hl : Lexeme.read closer? ahead = lexeme :: rest)
    (hu : lexeme.isUnclosed = false) (hquiet : stops parts.key.isSome ahead = false) :
    loop itemTurn (ofParts before part ahead after) parts =
      loop itemTurn (ofParts before (part ++ lexeme.text) (spell rest) after) parts := by
  cases ahead with
  | nil => simp at hl
  | cons c ahead =>
    cases hc : closer? c with
    | some closer =>
      rcases hs : splitGroup? c closer 0 ahead with _ | ⟨s, others⟩
      · rw [Lexeme.read_unclosed hc hs] at hl
        obtain ⟨rfl, _⟩ : .unclosed c (c :: ahead) = lexeme ∧ _ := by simpa using hl
        cases hu
      · rw [Lexeme.read_group hc hs] at hl
        obtain ⟨rfl, rfl⟩ : .group c (c :: s) = lexeme ∧ _ = rest := by simpa using hl
        obtain ⟨_, _, rfl⟩ := eq_append_of_splitGroup? hs
        rw [Lexeme.spell_read]
        have hturn := (itemTurn_opener hc).trans (overGroup_closed hs h parts)
        exact loop_moved (List.suffix_append s others) hturn
    | none =>
      by_cases hq : isQuote c = true
      · rcases hs : splitQuote c ahead with ⟨s, others⟩
        obtain rfl : s ++ others = ahead := by simpa [hs] using splitQuote_append c ahead
        rw [Lexeme.read_quoted hc hq, hs] at hl
        obtain ⟨rfl, rfl⟩ : .quoted (c :: s) = lexeme ∧ _ = rest := by simpa using hl
        rw [Lexeme.spell_read]
        exact loop_moved (List.suffix_append s others)
          (itemTurn_pass hc hquiet h (pass_quoted hq hs h))
      · have hq : isQuote c = false := by simpa using hq
        rw [Lexeme.read_single hc hq] at hl
        obtain ⟨rfl, rfl⟩ : .single c = lexeme ∧ _ = rest := by simpa using hl
        rw [Lexeme.spell_read]
        exact loop_moved (List.suffix_refl ahead) (itemTurn_pass hc hquiet h (pass_single hq h))

theorem loop_breakAt (h : byteSize (before ++ part ++ ahead ++ after) < offsetLimit)
    (hu : ∀ lexeme ∈ Lexeme.read closer? ahead, lexeme.isUnclosed = false)
    {first others : List Lexeme}
    (hb : breakAt (stops parts.key.isSome) (Lexeme.read closer? ahead) = (first, others)) :
    loop itemTurn (ofParts before part ahead after) parts =
      loop itemTurn (ofParts before (part ++ spell first) (spell others) after) parts := by
  -- What is ahead after a lexeme is read into the lexemes that are left.
  generalize hl : Lexeme.read closer? ahead = lexemes at hu hb
  induction lexemes generalizing part ahead first with
  | nil =>
    obtain ⟨rfl, rfl⟩ : [] = first ∧ [] = others := by simpa [breakAt] using hb
    obtain ⟨_, rfl⟩ := (Lexeme.read_eq_iff bracketing_closer?).mp hl
    simp
  | cons lexeme rest ih =>
    obtain ⟨hlexed, hspell⟩ := (Lexeme.read_eq_iff bracketing_closer?).mp hl
    have hrest := (@Lexeme.Lexed.of_append _ [lexeme] rest hlexed).1.read_spell bracketing_closer?
    rw [breakAt, hspell] at hb
    by_cases hstop : stops parts.key.isSome ahead = true
    · rw [if_pos hstop] at hb
      obtain ⟨rfl, rfl⟩ : [] = first ∧ lexeme :: rest = others := by simpa using hb
      rw [hspell, Lexeme.spell_nil, List.append_nil]
    · rw [if_neg hstop] at hb
      obtain ⟨rfl, rfl⟩ : lexeme :: (breakAt (stops parts.key.isSome) rest).1 = first ∧
        (breakAt (stops parts.key.isSome) rest).2 = others := by simpa using hb
      rw [loop_quiet h hl (hu lexeme (by simp)) (by simpa using hstop), ih _ hrest _ rfl,
        Lexeme.spell_cons, List.append_assoc]
      · rw [← hspell] at h
        simpa [Nat.add_assoc] using h
      · exact fun l hm => hu l (by simp [hm])

theorem loop_stopped {key : Option Text} {others : List Lexeme}
    (h : byteSize (before ++ part ++ spell others ++ after) < offsetLimit)
    (hstops : others ≠ [] → stops key.isSome (spell others) = true)
    (hk : (!key.isSome && endsKey (spell others)) = false) :
    loop itemTurn (ofParts before part (spell others) after) ⟨key, part ++ spell others, none⟩ =
      .ok ⟨key, part, (Layout.mk none [] others).condition⟩ := by
  by_cases ho : others = []
  · subst ho
    rw [Lexeme.spell_nil, loop_done itemTurn_end, List.append_nil, Layout.condition, if_pos rfl]
  · have hm : marks (spell others) = true := by
      rcases (Bool.or_eq_true _ _).mp (hstops ho) with hends | hm
      · rw [hk] at hends
        cases hends
      · exact hm
    obtain ⟨b, hhead, hb⟩ := Item.head?_of_marks hm
    obtain ⟨ahead, hspell⟩ := List.head?_eq_some_iff.mp hhead
    rw [Layout.condition, if_neg ho]
    simp only [hspell] at h hk hm ⊢
    exact loop_done (itemTurn_marked (closer?_of_isBlank hb) hk hm h)

theorem loop_value {key : Option Text} {value marked : List Lexeme}
    (h : byteSize (before ++ part ++ ahead ++ after) < offsetLimit)
    (hu : ∀ lexeme ∈ Lexeme.read closer? ahead, lexeme.isUnclosed = false)
    (hb : breakAt (stops key.isSome) (Lexeme.read closer? ahead) = (value, marked))
    (hk : (!key.isSome && endsKey (spell marked)) = false) :
    loop itemTurn (ofParts before part ahead after) ⟨key, part ++ ahead, none⟩ =
      .ok ⟨key, part ++ spell value, (Layout.mk none [] marked).condition⟩ := by
  obtain ⟨hl, _, hstops⟩ := Lexeme.breakAt_eq_iff.mp hb
  have hspell := Lexeme.spell_read closer? ahead
  rw [hl, Lexeme.spell_append] at hspell
  have hloop := @loop_breakAt before part ahead after ⟨key, part ++ ahead, none⟩ h hu _ _ hb
  rw [hloop, ← hspell, ← List.append_assoc]
  rw [← hspell] at h
  exact loop_stopped (by simpa [Nat.add_assoc] using h) hstops hk

/-- The loop finds the parts that the layout tells. -/
theorem loop_layout {text : Text} (h : byteSize (before ++ text ++ after) < offsetLimit)
    (hu : ∀ lexeme ∈ Lexeme.read closer? text, lexeme.isUnclosed = false) :
    loop itemTurn (ofParts before [] text after) ⟨none, text, none⟩ =
      .ok ⟨(layout (Lexeme.read closer? text)).key.map fun key => trim (spell key),
        spell (layout (Lexeme.read closer? text)).value,
        (layout (Lexeme.read closer? text)).condition⟩ := by
  have h' : byteSize (before ++ [] ++ text ++ after) < offsetLimit := by simpa using h
  rcases hb : breakAt (stops false) (Lexeme.read closer? text) with ⟨first, others⟩
  by_cases hk : endsKey (spell others) = true
  · obtain ⟨hl, _, _⟩ := Lexeme.breakAt_eq_iff.mp hb
    have hspell := Lexeme.spell_read closer? text
    rw [hl, Lexeme.spell_append] at hspell
    obtain ⟨b, t, ht, _⟩ := Item.endsKey_iff.mp hk
    have hlexed := Lexeme.lexed_read bracketing_closer? text
    rw [hl] at hlexed
    obtain rfl := hlexed.of_append.1.eq_single_cons bracketing_closer? ht rfl rfl
    -- The colon ends the key, and the value begins after it.
    have hloop := @loop_breakAt before [] text after ⟨none, text, none⟩ h' hu _ _ hb
    rcases hr : breakAt (stops true) (Lexeme.read closer? (b :: t)) with ⟨value, marked⟩
    have hu' : ∀ lexeme ∈ Lexeme.read closer? (b :: t), lexeme.isUnclosed = false :=
      fun lexeme hm => hu lexeme (by rw [hl]; simp [hm])
    rw [Item.layout_keyed hb hk hr, hloop]
    rw [ht] at hk ⊢
    rw [← hspell, ht] at h
    have hvalue := @loop_value (before ++ (spell first ++ [':'])) [] (b :: t) after
      (some (trim (spell first))) value marked (by simpa [Nat.add_assoc] using h) hu' hr rfl
    rw [List.nil_append, loop_moved (List.suffix_refl _)
      (itemTurn_key hk rfl (by simpa [Nat.add_assoc] using h))]
    exact hvalue
  · rw [Item.layout_plain hb hk]
    have hvalue := @loop_value before [] text after none first others h' hu hb (by simpa using hk)
    exact hvalue

end

theorem readItem_eq {before after : Text} {segment : Segment}
    (h : byteSize (before ++ segment.text ++ after) < offsetLimit)
    (hspan : segment.span = ⟨byteSize before, byteSize segment.text⟩)
    (hu : ∀ lexeme ∈ Lexeme.read closer? segment.text, lexeme.isUnclosed = false) :
    readItem (before ++ segment.text ++ after) segment = .ok (Item.ofSegment segment) := by
  rw [readItem, hspan, within_eq, check_ok, ok_bind, loop_layout h hu, ok_bind, Item.ofSegment,
    Layout.item, hspan]
  rfl

end Stencil.Word
