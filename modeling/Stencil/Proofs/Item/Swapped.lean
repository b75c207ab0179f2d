import Stencil.Proofs.Expression.Render
import Stencil.Proofs.Item.Written
import Stencil.Proofs.Lexeme.Exchange
import Stencil.Proofs.Shift

/-!
# One text in the place of another, in an item

In a source a text stands at one place, though the same characters may stand at others
too. When another text is put there, the item that is written around that place has the
other text in one part, at the place that this part has in the source. What stands before
the place tells which part that is, so there is one such item, and one such list of items.
-/

set_option autoImplicit false

namespace Stencil

attribute [ext] Item

namespace Item

/-- The part of an item that holds the `g` between `u` and `v` in its text holds `g'` there in the
other item, and the other parts are the same. -/
inductive Swapped (u g g' v : Text) (item item' : Item) : Prop
  | key {v₁ : Text} (hv : v₁ <+: v) (h : item.key = some (u ++ g ++ v₁))
      (h' : item'.key = some (u ++ g' ++ v₁)) (hvalue : item'.value = item.value)
      (hc : item'.condition = item.condition)
  | value {front u₁ v₁ : Text} (hfront : KeyWritten item.key front) (hu : u = front ++ u₁)
      (hv : v₁ <+: v) (h : item.value = u₁ ++ g ++ v₁) (h' : item'.value = u₁ ++ g' ++ v₁)
      (hk : item'.key = item.key) (hc : item'.condition = item.condition)
  | condition {u₁ : Text} (hu : u₁ <:+ u) (h : item.condition = some (u₁ ++ g ++ v))
      (h' : item'.condition = some (u₁ ++ g' ++ v)) (hk : item'.key = item.key)
      (hvalue : item'.value = item.value)

/-- The item that is written around the place after `x` has `g'` there instead of `g`. Those before
it are the same, and those after it stand behind the one or the other. -/
def ListSwapped (x g g' y : Text) (items items' : List Item) : Prop :=
  ∃ (before after : List Item) (item item' : Item) (x₁ u v y₁ : Text),
    x = x₁ ++ u ∧ y = v ++ y₁ ∧
    item.span = ⟨byteSize x₁, byteSize (u ++ g ++ v)⟩ ∧
    item'.span = ⟨byteSize x₁, byteSize (u ++ g' ++ v)⟩ ∧ Swapped u g g' v item item' ∧
    items = before ++ item :: after.map (shift (byteSize g)) ∧
    items' = before ++ item' :: after.map (shift (byteSize g'))

def WrittenIn (source : Text) (item : Item) : Prop :=
  ∃ text given, item.span.slice source = .ok text ∧ IsWritten text item given ∧
    ∀ c ∈ item.value.head?, isBlank c = false

theorem KeyWritten.unique {key : Option Text} {front front' s s' : Text}
    (h : KeyWritten key front) (h' : KeyWritten key front')
    (hs : ∀ c ∈ s.head?, isBlank c = false) (hs' : ∀ c ∈ s'.head?, isBlank c = false)
    (heq : front ++ s = front' ++ s') : front = front' := by
  cases h with
  | none =>
    cases h'
    rfl
  | @some key v w hv hw =>
    cases h' with
    | @some _ v' w' hv' hw' =>
      simp only [List.append_assoc, List.append_cancel_left_eq, List.cons_append] at heq
      have hcolon : ∀ t : Text, ∀ c ∈ (':' :: t).head?, isBlank c = false := by
        intro t c hc
        obtain rfl : ':' = c := by simpa using hc
        rfl
      have hbefore := congrArg leadingBlanks heq
      rw [leadingBlanks_append hv (hcolon _), leadingBlanks_append hv' (hcolon _)] at hbefore
      subst hbefore
      have hrest := (List.cons.inj (List.append_cancel_left heq)).2
      have hafter := congrArg leadingBlanks hrest
      rw [leadingBlanks_append hw hs, leadingBlanks_append hw' hs'] at hafter
      rw [hafter]

theorem KeyWritten.length_lt {key front : Text} (h : KeyWritten (.some key) front) :
    key.length < front.length := by
  cases h
  simp only [List.length_append, List.length_cons]
  omega

theorem ConditionWritten.length_le {condition t : Text} (h : ConditionWritten (.some condition) t) :
    condition.length ≤ t.length := by
  cases h with
  | some h =>
    obtain ⟨v, w, rfl, _⟩ := h
    simp only [List.length_append, List.length_cons]
    omega

section

variable {u g g' v front : Text} {item : Item}

theorem length_lt_of_key {v₁ : Text} (hfront : KeyWritten item.key front)
    (h : item.key = some (u ++ g ++ v₁)) : u.length < front.length := by
  rw [h] at hfront
  have hlt := hfront.length_lt
  simp only [List.length_append] at hlt
  omega

theorem place_of_value {front' u₁ v₁ rest : Text} (hg : g ≠ [])
    (hfront : KeyWritten item.key front) (hfront' : KeyWritten item.key front')
    (hhead : ∀ c ∈ item.value.head?, isBlank c = false) (hu : u = front' ++ u₁) (hv : v₁ <+: v)
    (h : item.value = u₁ ++ g ++ v₁) (htext : u ++ g ++ v = front ++ item.value ++ rest) :
    u = front ++ u₁ ∧ front.length ≤ u.length ∧
      u.length < front.length + item.value.length := by
  obtain ⟨v₂, rfl⟩ := hv
  have hne : item.value ≠ [] := by
    rw [h]
    simp [hg]
  have hbegins : ∀ t : Text, ∀ c ∈ (item.value ++ t).head?, isBlank c = false := by
    intro t
    rw [List.head?_append_of_ne_nil _ hne]
    exact hhead
  obtain rfl : front' = front := by
    refine hfront'.unique hfront (hbegins v₂) (hbegins rest) ?_
    rw [← List.append_assoc front, ← htext, hu, h]
    simp
  have hpos := List.length_pos_iff.mpr hg
  have hbefore := congrArg List.length hu
  have hlength := congrArg List.length h
  simp only [List.length_append] at hbefore hlength
  exact ⟨hu, by omega, by omega⟩

theorem length_le_of_condition {u₁ question back : Text} {given : Option Text} (ha : Alike g g')
    (hback : ConditionWritten given back)
    (hcondition : item.condition = given.or (if question = [] then none else some existence))
    (h : item.condition = some (u₁ ++ g ++ v))
    (htext : u ++ g ++ v = front ++ item.value ++ question ++ back) :
    front.length + item.value.length ≤ u.length := by
  obtain ⟨c, s, _, rfl, _, _, hc⟩ := ha.last
  rw [h] at hcondition
  cases given with
  | none =>
    -- The question mark alone holds no group.
    have hmem : c ∈ u₁ ++ (s ++ [c]) ++ v := by simp
    by_cases hq : question = []
    · simp [hq] at hcondition
    · rw [if_neg hq, Option.none_or] at hcondition
      rw [Option.some.inj hcondition] at hmem
      exact absurd (List.mem_singleton.mp hmem) hc
  | some condition =>
    obtain rfl : u₁ ++ (s ++ [c]) ++ v = condition := by simpa using hcondition
    have hle := hback.length_le
    have hlength := congrArg List.length htext
    simp only [List.length_append] at hle hlength
    omega

/-- The place tells the part, so there is one item with the other text there. -/
theorem Swapped.unique {item₁ item₂ : Item} {given : Option Text} (ha : Alike g g')
    (hw : IsWritten (u ++ g ++ v) item given)
    (hhead : ∀ c ∈ item.value.head?, isBlank c = false) (h₁ : Swapped u g g' v item item₁)
    (h₂ : Swapped u g g' v item item₂) (hspan : item₁.span = item₂.span) : item₁ = item₂ := by
  obtain ⟨front, question, back, htext, hfront, _, hback, hcondition⟩ := hw
  have htext' : u ++ g ++ v = front ++ item.value ++ (question ++ back) := by
    rw [htext, List.append_assoc _ question]
  -- How much stands before the place tells the part, so no two parts can hold it.
  cases h₁ with
  | key hv₁ hk₁ hk₁' hvalue₁ hc₁ =>
    have hlt := length_lt_of_key hfront hk₁
    cases h₂ with
    | key hv₂ hk₂ hk₂' hvalue₂ hc₂ =>
      obtain rfl := List.append_cancel_left (Option.some.inj (hk₁.symm.trans hk₂))
      exact Item.ext (hvalue₁.trans hvalue₂.symm) (hk₁'.trans hk₂'.symm) (hc₁.trans hc₂.symm) hspan
    | value hfront₂ hu₂ hv₂ h₂ =>
      have := place_of_value ha.trimmed.1 hfront hfront₂ hhead hu₂ hv₂ h₂ htext'
      omega
    | condition hu₂ h₂ =>
      have := length_le_of_condition ha hback hcondition h₂ htext
      omega
  | value hfront₁ hu₁ hv₁ h₁ h₁' hk₁ hc₁ =>
    obtain ⟨hu₁, hle, hlt⟩ := place_of_value ha.trimmed.1 hfront hfront₁ hhead hu₁ hv₁ h₁ htext'
    cases h₂ with
    | key hv₂ hk₂ =>
      have := length_lt_of_key hfront hk₂
      omega
    | value hfront₂ hu₂ hv₂ h₂ h₂' hk₂ hc₂ =>
      obtain ⟨hu₂, _⟩ := place_of_value ha.trimmed.1 hfront hfront₂ hhead hu₂ hv₂ h₂ htext'
      obtain rfl := List.append_cancel_left (hu₁.symm.trans hu₂)
      obtain rfl := List.append_cancel_left (h₁.symm.trans h₂)
      exact Item.ext (h₁'.trans h₂'.symm) (hk₁.trans hk₂.symm) (hc₁.trans hc₂.symm) hspan
    | condition hu₂ h₂ =>
      have := length_le_of_condition ha hback hcondition h₂ htext
      omega
  | condition hu₁ h₁ h₁' hk₁ hvalue₁ =>
    have hle := length_le_of_condition ha hback hcondition h₁ htext
    cases h₂ with
    | key hv₂ hk₂ =>
      have := length_lt_of_key hfront hk₂
      omega
    | value hfront₂ hu₂ hv₂ h₂ =>
      have := place_of_value ha.trimmed.1 hfront hfront₂ hhead hu₂ hv₂ h₂ htext'
      omega
    | condition hu₂ h₂ h₂' hk₂ hvalue₂ =>
      obtain rfl := List.append_cancel_right
        (List.append_cancel_right (Option.some.inj (h₁.symm.trans h₂)))
      exact Item.ext (hvalue₁.trans hvalue₂.symm) (hk₁.trans hk₂.symm) (h₁'.trans h₂'.symm) hspan

end

theorem head_value_item (l : Layout) (span : Span) :
    ∀ c ∈ (l.item span).value.head?, isBlank c = false := by
  have hhead : ∀ c ∈ (l.raw span).value.head?, isBlank c = false :=
    (trimmed_trim (Lexeme.spell l.value)).head
  rw [Layout.item]
  rcases settle_cases (l.raw span) with hsame | ⟨value, hvalue, hstripped⟩
  · rw [hsame]
    exact hhead
  · rw [hstripped]
    rw [hvalue] at hhead
    exact fun c hc => hhead c (List.mem_head?_append_of_mem_head? hc)

theorem writtenIn_ofSegment {source : Text} {segment : Segment}
    (h : Segment.Entry segment.text) (hslice : segment.span.slice source = .ok segment.text) :
    WrittenIn source (ofSegment segment) :=
  ⟨segment.text, _, (span_ofSegment segment).symm ▸ hslice, isWritten_ofSegment h,
    head_value_item _ segment.span⟩

theorem shift_injective (amount : Nat) : Function.Injective (shift amount) := by
  intro item item' h
  obtain ⟨value, key, condition, start, length⟩ := item
  obtain ⟨value', key', condition', start', length'⟩ := item'
  simpa [shift, Span.shift] using h

/-- Of items in order, each written in the source, one list has the other text at the place. -/
theorem ListSwapped.unique {x g g' y : Text} {items items₁ items₂ : List Item} (ha : Alike g g')
    (hordered : (items.map span).Pairwise fun s t => s.stop ≤ t.start)
    (hwritten : ∀ item ∈ items, WrittenIn (x ++ g ++ y) item)
    (h₁ : ListSwapped x g g' y items items₁) (h₂ : ListSwapped x g g' y items items₂) :
    items₁ = items₂ := by
  obtain ⟨before, after, item, item₁, x₁, u, v, y₁, rfl, rfl, hspan, hspan₁, hswapped₁, rfl, rfl⟩ :=
    h₁
  obtain ⟨before₂, after₂, item₂, item₂', x₂, u₂, v₂, y₂, hx, hy, hspan₂, hspan₂', hswapped₂, heq,
    rfl⟩ := h₂
  have hsize := congrArg byteSize hx
  have hpos : 0 < byteSize g := Nat.pos_of_ne_zero fun h => ha.trimmed.1 (byteSize_eq_zero.mp h)
  -- Both items hold the place, and no two items of the list overlap.
  rw [List.map_append, List.map_cons, List.pairwise_append, List.pairwise_cons] at hordered
  obtain ⟨_, ⟨hafter, _⟩, hbefore⟩ := hordered
  have hnot : item₂ ∉ before ∧ item₂ ∉ after.map (shift (byteSize g)) := by
    simp only [byteSize_append] at hsize
    constructor
    · intro hm
      have hle := hbefore _ (List.mem_map_of_mem hm) _ List.mem_cons_self
      simp only [hspan, hspan₂, Span.stop, byteSize_append] at hle
      omega
    · intro hm
      have hle := hafter _ (List.mem_map_of_mem hm)
      simp only [hspan, hspan₂, Span.stop, byteSize_append] at hle
      omega
  obtain ⟨rfl, rfl, htail⟩ := (List.append_cons_inj_of_notMem hnot.1 hnot.2).mp heq
  obtain rfl := List.map_injective_iff.mpr (shift_injective _) htail
  obtain ⟨hstart, hlength⟩ := Span.mk.inj (hspan.symm.trans hspan₂)
  obtain ⟨rfl, rfl⟩ := append_inj_byteSize hx hstart
  have hv : byteSize v = byteSize v₂ := by simpa using hlength
  obtain ⟨rfl, rfl⟩ := append_inj_byteSize hy hv
  obtain ⟨text, given, htext, hisWritten, hhead⟩ := hwritten item (by simp)
  have hslice : item.span.slice (x₁ ++ u ++ g ++ (v ++ y₁)) = .ok (u ++ g ++ v) :=
    Span.slice_eq_ok_iff.mpr ⟨x₁, y₁, by simp, hspan⟩
  obtain rfl := Except.ok.inj (htext.symm.trans hslice)
  rw [hswapped₁.unique ha hisWritten hhead hswapped₂ (hspan₁.trans hspan₂'.symm)]

end Item

end Stencil
