import Stencil.Proofs.Expression.Parsed

/-!
# Expressions of one kind

A text is refused for a mix of items if its body is split and, of the items read
from the segments, some have keys and some have none, and for nothing else; an
opener without its closer comes first. In an expression that is read, one item with
a key is enough to know that it is a keyed set.
-/

set_option autoImplicit false

namespace Stencil

theorem isMixed_eq_true_iff {items : List Item} : isMixed items = true ↔
    (∃ item ∈ items, item.isKeyed = true) ∧ ∃ item ∈ items, item.isKeyed = false := by
  simp [isMixed]

theorem isKeyed_congr {items : List Item} (h : isMixed items = false) {item other : Item}
    (hi : item ∈ items) (ho : other ∈ items) : item.isKeyed = other.isKeyed := by
  have hnot : ¬ isMixed items = true := by simp [h]
  rw [isMixed_eq_true_iff] at hnot
  cases hk : item.isKeyed with
  | true =>
    cases hk' : other.isKeyed with
    | true => rfl
    | false => exact absurd ⟨⟨item, hi, hk⟩, other, ho, hk'⟩ hnot
  | false =>
    cases hk' : other.isKeyed with
    | true => exact absurd ⟨⟨other, ho, hk'⟩, item, hi, hk⟩ hnot
    | false => rfl

theorem isKeyedSet_iff_exists {items : List Item} (h : isMixed items = false) :
    isKeyedSet items = true ↔ ∃ item ∈ items, item.isKeyed = true := by
  cases items with
  | nil => simp [isKeyedSet]
  | cons first rest =>
    have hfirst : first ∈ first :: rest := List.mem_cons_self
    constructor
    · intro hset
      have hall : (first :: rest).all Item.isKeyed = true := by simpa [isKeyedSet] using hset
      exact ⟨first, hfirst, List.all_eq_true.mp hall first hfirst⟩
    · rintro ⟨item, hi, hk⟩
      have hall : (first :: rest).all Item.isKeyed = true :=
        List.all_eq_true.mpr fun other ho => (isKeyed_congr h ho hi).trans hk
      simpa [isKeyedSet] using hall

theorem exists_head?_iff {items : List Item} (h : isMixed items = false) :
    (∃ item ∈ items.head?, item.isKeyed = true) ↔ ∃ item ∈ items, item.isKeyed = true := by
  constructor
  · rintro ⟨item, hi, hk⟩
    exact ⟨item, List.mem_of_mem_head? hi, hk⟩
  · rintro ⟨item, hi, hk⟩
    cases items with
    | nil => cases hi
    | cons first rest =>
      exact ⟨first, rfl, (isKeyed_congr h List.mem_cons_self hi).trans hk⟩

namespace Expression

theorem isExtended_of_isKeyedSet {e : Expression} (h : e.isKeyedSet = true) :
    e.isExtended = true := by
  obtain ⟨items, span, source⟩ := e
  cases items with
  | nil => simp [isKeyedSet, Stencil.isKeyedSet] at h
  | cons first rest =>
    have hkeyed : first.isKeyed = true := by
      simp only [isKeyedSet, Stencil.isKeyedSet, List.all_cons, Bool.and_eq_true] at h
      exact h.2.1
    have hextended : first.isExtended = true := by
      rw [Item.isExtended, ← Item.isKeyed, hkeyed, Bool.true_or]
    exact List.any_eq_true.mpr ⟨first, List.mem_cons_self, hextended⟩

theorem ofBody_eq_mixed_iff {offset : Nat} {body source : Text} {span : Span} :
    (∃ text span', ofBody offset body source span =
        .error (.refused ⟨.mixedItems text, span'⟩)) ↔
      ∃ segments, Segment.ofLexemes offset (Lexeme.read closer? body) = .ok segments ∧
        isMixed (segments.map Item.ofSegment) = true := by
  rw [ofBody]
  cases hs : Segment.ofLexemes offset (Lexeme.read closer? body) with
  | error failure =>
    obtain ⟨_, _, _, _, _, _, _, rfl⟩ := Segment.exists_opener_of_ofLexemes hs
    simp [bind, Except.bind]
  | ok segments =>
    simp only [bind, Except.bind]
    by_cases hm : isMixed (segments.map Item.ofSegment) = true
    · rw [if_pos hm]
      exact ⟨fun _ => ⟨segments, rfl, hm⟩, fun _ => ⟨source, span, rfl⟩⟩
    · rw [if_neg hm]
      constructor
      · rintro ⟨_, _, h⟩
        cases h
      · rintro ⟨_, hok, hm'⟩
        rw [← Except.ok.inj hok] at hm'
        exact absurd hm' hm

/-- A text is refused for a mix exactly if it can be split and its items are mixed. -/
theorem parse_eq_mixed_iff {text : Text} :
    (∃ source span, parse text = .error (.refused ⟨.mixedItems source, span⟩)) ↔
      ∃ body segments items, window text = .ok body ∧
        Segment.splitWithin (Place.start text) body = .ok segments ∧
        segments.mapM Item.read = .ok items ∧ isMixed items = true := by
  by_cases hs : byteSize text < offsetLimit
  · obtain ⟨body, bodySpan, hwindow, hslice, hparse⟩ := exists_window hs
    have hsplit := Segment.splitWithin_of_slice hslice
    rw [hparse, ofBody_eq_mixed_iff]
    constructor
    · rintro ⟨segments, hsegments, hm⟩
      exact ⟨bodySpan, segments, segments.map Item.ofSegment, hwindow, hsplit.trans hsegments,
        mapM_eq_ok (Segment.read_of_ofLexemes hsegments), hm⟩
    · rintro ⟨_, segments, items, hwindow', hsegments, hitems, hm⟩
      obtain rfl := Except.ok.inj (hwindow.symm.trans hwindow')
      rw [hsplit] at hsegments
      rw [mapM_eq_ok (Segment.read_of_ofLexemes hsegments)] at hitems
      rw [← Except.ok.inj hitems] at hm
      exact ⟨segments, hsegments, hm⟩
  · constructor
    · rintro ⟨source, span, h⟩
      exact absurd (byteSize_lt_of_refused h) hs
    · rintro ⟨_, _, _, hwindow, _⟩
      rw [window, Span.ofText, if_neg hs] at hwindow
      cases hwindow

/-- A text is refused for a mix of items exactly if there is one, and what is read without being
refused is all keyed or all plain. -/
theorem homogeneous :
    (∀ text, (∃ source span, parse text = .error (.refused ⟨.mixedItems source, span⟩)) ↔
      ∃ body segments items, window text = .ok body ∧
        Segment.splitWithin (Place.start text) body = .ok segments ∧
        segments.mapM Item.read = .ok items ∧
        (∃ item ∈ items, item.isKeyed = true) ∧ ∃ item ∈ items, item.isKeyed = false) ∧
    ∀ e : Expression, Parsed e →
      ((∃ item ∈ e.items, item.isKeyed = true) ↔ ∃ item ∈ e.items.head?, item.isKeyed = true) ∧
      ((∃ item ∈ e.items, item.isKeyed = true) ↔ e.isKeyedSet = true) ∧
      (e.isKeyedSet = true → e.isExtended = true) := by
  refine ⟨fun text => ?_, fun e h => ?_⟩
  · rw [parse_eq_mixed_iff]
    simp only [isMixed_eq_true_iff]
  · have hone := h.items.1
    exact ⟨(exists_head?_iff hone).symm, (isKeyedSet_iff_exists hone).symm,
      isExtended_of_isKeyedSet⟩

theorem homogeneous_of_nested_keys :
    (∃ source span, parse "\x7bé: x, [k: v]\x7d".toList =
      .error (.refused ⟨.mixedItems source, span⟩)) ∧
    ∃ e, parse "k: \x7ba, b: c\x7d, 'l': v if c".toList = .ok e ∧ Parsed e ∧
      e.isKeyedSet = true ∧ e.isExtended = true := by
  have hwindow : window "\x7bé: x, [k: v]\x7d".toList = .ok ⟨1, 13⟩ := by decide +kernel
  have hsplit : Segment.splitWithin (Place.start "\x7bé: x, [k: v]\x7d".toList) ⟨1, 13⟩ =
      .ok [⟨"é: x".toList, ⟨1, 5⟩⟩, ⟨"[k: v]".toList, ⟨8, 6⟩⟩] := by
    decide +kernel
  have hread : [Segment.mk "é: x".toList ⟨1, 5⟩, ⟨"[k: v]".toList, ⟨8, 6⟩⟩].mapM Item.read =
      .ok [⟨['x'], some ['é'], none, ⟨1, 5⟩⟩, ⟨"[k: v]".toList, none, none, ⟨8, 6⟩⟩] := by
    decide +kernel
  have hparse : parse "k: \x7ba, b: c\x7d, 'l': v if c".toList = .ok
      ⟨[⟨"\x7ba, b: c\x7d".toList, some ['k'], none, ⟨0, 12⟩⟩,
        ⟨['v'], some "'l'".toList, some ['c'], ⟨14, 11⟩⟩], ⟨0, 25⟩,
        "k: \x7ba, b: c\x7d, 'l': v if c".toList⟩ := by
    decide +kernel
  have hmixed := (homogeneous.1 "\x7bé: x, [k: v]\x7d".toList).mpr
    ⟨_, _, _, hwindow, hsplit, hread, ⟨_, List.mem_cons_self, rfl⟩,
      _, List.mem_cons_of_mem _ List.mem_cons_self, rfl⟩
  obtain ⟨_, hset, hextended⟩ := homogeneous.2 _ (.alone hparse)
  have hkeyed := hset.mp ⟨_, List.mem_cons_self, rfl⟩
  exact ⟨hmixed, _, hparse, .alone hparse, hkeyed, hextended hkeyed⟩

end Expression

end Stencil
