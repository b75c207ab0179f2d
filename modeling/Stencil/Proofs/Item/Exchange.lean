import Stencil.Proofs.Item.Swapped

/-!
# One group in the place of another, in an item

No separator begins in a group or a quoted run, and none reaches into it. So an item
keeps its layout when another group of the same kind, or another run in the same
quotes, stands there: that is all that changes, in the part that holds it.
-/

set_option autoImplicit false

namespace Stencil

namespace Pattern

theorem conditionMarker_append_foreign {c : Char} (hc : Foreign c) {u s : Text} {n : Nat} :
    conditionMarker (u ++ c :: s) = some n ↔ ∃ v w rest, u = v ++ 'i' :: 'f' :: w ++ rest ∧
      Blanks v ∧ v ≠ [] ∧ Blanks w ∧ w ≠ [] ∧ (∀ d ∈ (rest ++ [c]).head?, isBlank d = false) ∧
      n = v.length + 2 + w.length := by
  rw [conditionMarker_eq_some_iff]
  constructor
  · rintro ⟨v, w, rest, ht, hv, hvne, hw, hwne, hrest, rfl⟩
    have hmem : c ∉ v ++ 'i' :: 'f' :: w := by
      intro hm
      simp only [List.mem_append, List.mem_cons] at hm
      rcases hm with hm | rfl | rfl | hm
      · simpa [hc.blank] using hv c hm
      · exact hc.i rfl
      · exact hc.f rfl
      · simpa [hc.blank] using hw c hm
    rcases List.append_eq_append_iff.mp ht with ⟨r, hr, hs⟩ | ⟨r, rfl, hs⟩
    · cases r with
      | nil =>
        rw [List.append_nil] at hr
        refine ⟨v, w, [], by rw [List.append_nil]; exact hr.symm, hv, hvne, hw, hwne, ?_, rfl⟩
        simpa using hc.blank
      | cons d r =>
        obtain ⟨rfl, _⟩ : c = d ∧ s = r ++ rest := by simpa using hs
        exact absurd (by rw [hr]; simp) hmem
    · refine ⟨v, w, r, rfl, hv, hvne, hw, hwne, ?_, rfl⟩
      intro d hd
      apply hrest d
      rw [hs]
      cases r with
      | nil => simpa using hd
      | cons e r => simpa using hd
  · rintro ⟨v, w, rest, rfl, hv, hvne, hw, hwne, hrest, rfl⟩
    refine ⟨v, w, rest ++ c :: s, by simp, hv, hvne, hw, hwne, ?_, rfl⟩
    intro d hd
    apply hrest d
    cases rest with
    | nil => simpa using hd
    | cons e rest => simpa using hd

theorem conditionMarker_foreign {c : Char} (hc : Foreign c) (u s s' : Text) :
    conditionMarker (u ++ c :: s) = conditionMarker (u ++ c :: s') := by
  apply Option.ext
  intro n
  rw [conditionMarker_append_foreign hc, conditionMarker_append_foreign hc]

end Pattern

namespace Item

open Lexeme (spell breakAt Lexed)

theorem marks_foreign {c : Char} (hc : Foreign c) (u s s' : Text) :
    marks (u ++ c :: s) = marks (u ++ c :: s') := by
  rw [marks, marks, Pattern.conditionMarker_foreign hc u s s']

theorem endsKey_foreign {c : Char} (hc : Foreign c) (u s s' : Text) :
    endsKey (u ++ c :: s) = endsKey (u ++ c :: s') := by
  match u with
  | [] => simp [endsKey, hc.colon]
  | [d] =>
    by_cases hd : d = ':' <;> simp [endsKey, hd]
  | d :: e :: u =>
    by_cases hd : d = ':' <;> simp [endsKey, hd]

theorem stops_foreign {c : Char} (hc : Foreign c) (keyed : Bool) (u s s' : Text) :
    stops keyed (u ++ c :: s) = stops keyed (u ++ c :: s') := by
  rw [stops, stops, endsKey_foreign hc u s s', marks_foreign hc u s s']

theorem stops_foreign_cons {c : Char} (hc : Foreign c) (keyed : Bool) (s : Text) :
    stops keyed (c :: s) = false := by
  have hm : marks (c :: s) = false := marks_eq_false (by simpa using hc.blank)
  have hk : endsKey (c :: s) = false := by simp [endsKey, hc.colon]
  rw [stops, hm, hk, Bool.and_false, Bool.or_false]

section

variable {g g' : Text} {lexeme lexeme' : Lexeme} {p q : List Lexeme}

/-- Lexemes break at the same place around either lexeme: after it or before it. -/
theorem breakAt_exchange (ha : Alike lexeme.text lexeme'.text) (keyed : Bool)
    (p q : List Lexeme) :
    (∃ q₁ q₂, q = q₁ ++ q₂ ∧
      breakAt (stops keyed) (p ++ lexeme :: q) = (p ++ lexeme :: q₁, q₂) ∧
      breakAt (stops keyed) (p ++ lexeme' :: q) = (p ++ lexeme' :: q₁, q₂)) ∨
    ∃ p₁ first p₂, p = p₁ ++ first :: p₂ ∧
      breakAt (stops keyed) (p ++ lexeme :: q) = (p₁, first :: p₂ ++ lexeme :: q) ∧
      breakAt (stops keyed) (p ++ lexeme' :: q) = (p₁, first :: p₂ ++ lexeme' :: q) := by
  obtain ⟨c, s, s', hg, hg', hc⟩ := ha.first
  induction p with
  | nil =>
    left
    obtain ⟨hq, _, _⟩ := Lexeme.breakAt_eq_iff.mp (rfl : breakAt (stops keyed) q = (_, _))
    refine ⟨(breakAt (stops keyed) q).1, (breakAt (stops keyed) q).2, hq, ?_, ?_⟩
    · rw [List.nil_append, breakAt, Lexeme.spell_cons, hg, List.cons_append,
        stops_foreign_cons hc, if_neg (by simp)]
      rfl
    · rw [List.nil_append, breakAt, Lexeme.spell_cons, hg', List.cons_append,
        stops_foreign_cons hc, if_neg (by simp)]
      rfl
  | cons first p ih =>
    have hstops : stops keyed (spell (first :: (p ++ lexeme :: q))) =
        stops keyed (spell (first :: (p ++ lexeme' :: q))) := by
      have hforeign := stops_foreign hc keyed (first.text ++ spell p) (s ++ spell q) (s' ++ spell q)
      simpa [hg, hg'] using hforeign
    rw [List.cons_append, List.cons_append, breakAt, breakAt, ← hstops]
    by_cases hstop : stops keyed (spell (first :: (p ++ lexeme :: q))) = true
    · right
      rw [if_pos hstop, if_pos hstop]
      exact ⟨[], first, p, rfl, rfl, rfl⟩
    · rw [if_neg hstop, if_neg hstop]
      rcases ih with ⟨q₁, q₂, hq, h, h'⟩ | ⟨p₁, second, p₂, hp, h, h'⟩
      · left
        exact ⟨q₁, q₂, hq, by rw [h]; rfl, by rw [h']; rfl⟩
      · right
        exact ⟨first :: p₁, second, p₂, by rw [hp]; rfl, by rw [h], by rw [h']⟩

inductive Layout.Exchanged (p : List Lexeme) (lexeme lexeme' : Lexeme) (q : List Lexeme) :
    Layout → Layout → Prop
  | key {q₁ q₂ value marked : List Lexeme} (hq : q = q₁ ++ q₂) :
      Exchanged p lexeme lexeme' q ⟨some (p ++ lexeme :: q₁), value, marked⟩
        ⟨some (p ++ lexeme' :: q₁), value, marked⟩
  | value {l : Layout} {p₁ q₁ q₂ : List Lexeme} (hp : p = l.lead ++ p₁) (hq : q = q₁ ++ q₂)
      (h : l.value = p₁ ++ lexeme :: q₁) :
      Exchanged p lexeme lexeme' q l { l with value := p₁ ++ lexeme' :: q₁ }
  | marked {key : Option (List Lexeme)} {value p₁ p₂ : List Lexeme} (hp : p = p₁ ++ p₂) :
      Exchanged p lexeme lexeme' q ⟨key, value, p₂ ++ lexeme :: q⟩ ⟨key, value, p₂ ++ lexeme' :: q⟩

theorem layout_exchange (ha : Alike lexeme.text lexeme'.text)
    (hl : Lexed closer? (p ++ lexeme :: q)) :
    Layout.Exchanged p lexeme lexeme' q (layout (p ++ lexeme :: q))
      (layout (p ++ lexeme' :: q)) := by
  obtain ⟨c, s, s', hg, hg', hc⟩ := ha.first
  rcases breakAt_exchange ha false p q with ⟨q₁, after, hq, h, h'⟩ | ⟨p₁, first, p₂, hp, h, h'⟩
  · -- The lexeme comes before the first separator.
    by_cases hk : endsKey (spell after) = true
    · cases after with
      | nil => cases hk
      | cons colon rest =>
        rw [layout_keyed h hk rfl, layout_keyed h' hk rfl]
        exact .key hq
    · rw [layout_plain h hk, layout_plain h' hk]
      exact .value rfl hq rfl
  · -- It comes after it, and the separator is the same.
    have hends : endsKey (spell (first :: p₂ ++ lexeme :: q)) =
        endsKey (spell (first :: p₂ ++ lexeme' :: q)) := by
      have hforeign := endsKey_foreign hc (spell (first :: p₂)) (s ++ spell q) (s' ++ spell q)
      simpa [hg, hg'] using hforeign
    by_cases hk : endsKey (spell (first :: p₂ ++ lexeme :: q)) = true
    · have hk' := hends.symm.trans hk
      obtain rfl : first = .single ':' := by
        obtain ⟨b, t, ht, _⟩ := endsKey_iff.mp hk
        have hsplit : p ++ lexeme :: q = p₁ ++ (first :: p₂ ++ lexeme :: q) := by simp [hp]
        rw [hsplit] at hl
        have hcolon := hl.of_append.1.eq_single_cons bracketing_closer? ht rfl rfl
        exact (List.cons.inj hcolon).1
      have hlead : p = p₁ ++ [.single ':'] ++ p₂ := by simpa using hp
      rcases breakAt_exchange ha true p₂ q with ⟨q₁, marked, hq, hv, hv'⟩ |
        ⟨value, l, p₃, hp₂, hv, hv'⟩
      · rw [layout_keyed h hk hv, layout_keyed h' hk' hv']
        exact .value hlead hq rfl
      · rw [layout_keyed h hk hv, layout_keyed h' hk' hv']
        exact .marked (hlead.trans (by rw [hp₂, ← List.append_assoc]))
    · rw [layout_plain h hk, layout_plain h' fun hk' => hk (hends.trans hk')]
      exact .marked hp

theorem exists_markerLength {c : Char} (hc : Foreign c) (u : Text) :
    ∃ n, n ≤ u.length ∧ ∀ s, markerLength (u ++ c :: s) = n := by
  refine ⟨markerLength (u ++ [c]), ?_, fun s => ?_⟩
  · rw [markerLength]
    cases hm : Pattern.conditionMarker (u ++ [c]) with
    | none => simp
    | some n =>
      obtain ⟨v, w, rest, rfl, _, _, _, _, _, rfl⟩ :=
        (Pattern.conditionMarker_append_foreign hc).mp hm
      simp only [Option.getD_some, List.length_append, List.length_cons]
      omega
  · rw [markerLength, markerLength, Pattern.conditionMarker_foreign hc u s []]

theorem condition_exchange (ha : Alike lexeme.text lexeme'.text) (key : Option (List Lexeme))
    (value p q : List Lexeme) :
    ∃ u, u <:+ spell p ∧
      (Layout.mk key value (p ++ lexeme :: q)).condition =
        some (u ++ lexeme.text ++ trimEnd (spell q)) ∧
      (Layout.mk key value (p ++ lexeme' :: q)).condition =
        some (u ++ lexeme'.text ++ trimEnd (spell q)) := by
  obtain ⟨c, s, s', hg, hg', hc⟩ := ha.first
  obtain ⟨n, hn, hlength⟩ := exists_markerLength hc (spell p)
  have hdrop : ∀ l : Lexeme, l.text.head? = some c →
      (spell (p ++ l :: q)).drop (markerLength (spell (p ++ l :: q))) =
        (spell p).drop n ++ l.text ++ spell q := by
    intro l hl
    obtain ⟨s, hs⟩ := List.head?_eq_some_iff.mp hl
    have hspell : spell (p ++ l :: q) = spell p ++ c :: (s ++ spell q) := by simp [hs]
    rw [hspell, hlength, List.drop_append_of_le_length hn, hs]
    simp
  obtain ⟨htrim, htrim'⟩ := ha.trim_around ((spell p).drop n) (spell q)
  refine ⟨trimStart ((spell p).drop n),
    (List.dropWhile_suffix _).trans (List.drop_suffix n _), ?_, ?_⟩
  · rw [Layout.condition, if_neg (by simp), hdrop lexeme (by simp [hg]), htrim]
    simp [ha.trimmed.1, -List.append_assoc]
  · rw [Layout.condition, if_neg (by simp), hdrop lexeme' (by simp [hg']), htrim']
    simp [ha.symm.trimmed.1, -List.append_assoc]

/-- A question mark at the end is taken off both values or off neither. -/
theorem strip_exchange (ha : Alike g g') (u v : Text) :
    (stripQuestion? (u ++ g ++ v) = none ∧ stripQuestion? (u ++ g' ++ v) = none) ∨
      ∃ v₁, v₁ <+: v ∧ stripQuestion? (u ++ g ++ v) = some (u ++ g ++ v₁) ∧
        stripQuestion? (u ++ g' ++ v) = some (u ++ g' ++ v₁) := by
  rcases List.eq_nil_or_concat' v with rfl | ⟨v, d, rfl⟩
  · obtain ⟨c, s, s', rfl, rfl, _, hc⟩ := ha.last
    left
    simp [stripQuestion?, hc]
  · have hstrip : ∀ t : Text, stripQuestion? (t ++ [d]) = if d = '?' then some t else none := by
      simp [stripQuestion?]
    rw [← List.append_assoc, ← List.append_assoc, hstrip, hstrip]
    by_cases hd : d = '?'
    · rw [if_pos hd, if_pos hd]
      exact .inr ⟨v, List.prefix_append v [d], rfl, rfl⟩
    · rw [if_neg hd, if_neg hd]
      exact .inl ⟨rfl, rfl⟩

end

theorem settle_none {item : Item} (h : stripQuestion? item.value = none) : item.settle = item := by
  rw [settle, h]

theorem settle_some {item : Item} {value : Text} (h : stripQuestion? item.value = some value) :
    item.settle = ⟨value, item.key, some (item.condition.getD existence), item.span⟩ := by
  rw [settle, h]

theorem Swapped.settle {u g g' v : Text} (ha : Alike g g') {item item' : Item}
    (h : Swapped u g g' v item item') : Swapped u g g' v item.settle item'.settle := by
  cases h with
  | key hv h h' hvalue hc =>
    cases hs : stripQuestion? item.value with
    | none =>
      rw [settle_none hs, settle_none (hvalue ▸ hs)]
      exact .key hv h h' hvalue hc
    | some value =>
      rw [settle_some hs, settle_some (hvalue ▸ hs)]
      exact .key hv h h' rfl (by rw [hc])
  | @value front u₁ v₁ hfront hu hv h h' hk hc =>
    rcases strip_exchange ha u₁ v₁ with ⟨hs, hs'⟩ | ⟨v₂, hv₂, hs, hs'⟩
    · rw [settle_none (h ▸ hs), settle_none (h' ▸ hs')]
      exact .value hfront hu hv h h' hk hc
    · rw [settle_some (h ▸ hs), settle_some (h' ▸ hs')]
      exact .value hfront hu (hv₂.trans hv) rfl rfl hk (by rw [hc])
  | condition hu h h' hk hvalue =>
    cases hs : stripQuestion? item.value with
    | none =>
      rw [settle_none hs, settle_none (hvalue ▸ hs)]
      exact .condition hu h h' hk hvalue
    | some value =>
      rw [settle_some hs, settle_some (hvalue ▸ hs)]
      exact .condition hu (by rw [h]; rfl) (by rw [h']; rfl) hk rfl

section

variable {lexeme lexeme' : Lexeme} {p q : List Lexeme}

theorem swapped_of_layout (ha : Alike lexeme.text lexeme'.text)
    (ht : Trimmed (spell p ++ lexeme.text ++ spell q)) {l l' : Layout}
    (h : l.Exchanged p lexeme lexeme' q l') (span span' : Span) :
    Swapped (spell p) lexeme.text lexeme'.text (spell q) (l.item span) (l'.item span') := by
  apply Swapped.settle ha
  have hhead : ∀ c ∈ (spell p).head?, isBlank c = false := by
    intro c hc
    apply ht.head c
    rw [List.append_assoc]
    exact List.mem_head?_append_of_mem_head? hc
  cases h with
  | @key q₁ q₂ value marked hq =>
    obtain ⟨htrim, htrim'⟩ := ha.trim_around (spell p) (spell q₁)
    rw [trimStart_eq_self hhead] at htrim htrim'
    refine .key ((trimEnd_isPrefix (spell q₁)).trans ?_) ?_ ?_ rfl rfl
    · rw [hq, Lexeme.spell_append]
      exact List.prefix_append _ _
    · simpa [Layout.raw] using htrim
    · simpa [Layout.raw] using htrim'
  | @value _ p₁ q₁ q₂ hp hq h =>
    obtain ⟨htrim, htrim'⟩ := ha.trim_around (spell p₁) (spell q₁)
    rw [hp, Lexeme.spell_append] at hhead ⊢
    have hfront : spell l.lead ++ spell p₁ =
        spell l.lead ++ leadingBlanks (spell p₁) ++ trimStart (spell p₁) := by
      rw [List.append_assoc, leadingBlanks_append_trimStart]
    refine .value (keyWritten_lead hhead) hfront ((trimEnd_isPrefix (spell q₁)).trans ?_) ?_ ?_
      rfl rfl
    · rw [hq, Lexeme.spell_append]
      exact List.prefix_append _ _
    · simpa [Layout.raw, Layout.valueText, h] using htrim
    · simpa [Layout.raw, Layout.valueText] using htrim'
  | @marked key value p₁ p₂ hp =>
    obtain ⟨u, hu, hc, hc'⟩ := condition_exchange ha key value p₂ q
    have hlast : trimEnd (spell q) = spell q := by
      apply trimEnd_eq_self
      intro c hc
      exact ht.last c (List.mem_getLast?_append_of_mem_getLast? hc)
    rw [hlast] at hc hc'
    refine .condition (hu.trans ?_) hc hc' rfl rfl
    rw [hp, Lexeme.spell_append]
    exact List.suffix_append _ _

/-- Of two texts that are the same but for the lexeme, the items are so too. -/
theorem swapped_of_read (ha : Alike lexeme.text lexeme'.text) (hl : Lexeme.Closed closer? lexeme)
    (hl' : Lexeme.Closed closer? lexeme') {u v : Text}
    (hu : ∀ l ∈ Lexeme.read closer? u, Lexeme.Closed closer? l)
    (ht : Trimmed (u ++ lexeme.text ++ v)) (span span' : Span) :
    Swapped u lexeme.text lexeme'.text v (ofSegment ⟨u ++ lexeme.text ++ v, span⟩)
      (ofSegment ⟨u ++ lexeme'.text ++ v, span'⟩) := by
  have hlexed := Lexeme.lexed_read bracketing_closer? (u ++ lexeme.text ++ v)
  rw [hl.read_around hu] at hlexed
  have hlayout := layout_exchange ha hlexed
  rw [← Lexeme.spell_read closer? u, ← Lexeme.spell_read closer? v] at ht
  have hswapped := swapped_of_layout ha ht hlayout span span'
  rw [Lexeme.spell_read, Lexeme.spell_read] at hswapped
  rwa [ofSegment, ofSegment, hl.read_around hu, hl'.read_around hu]

end

end Item

end Stencil
