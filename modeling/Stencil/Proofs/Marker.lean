import Stencil.Item
import Stencil.Proofs.Trim

/-!
# Where a separator can begin

A marker begins with blanks and a key ends at a colon before a blank, so both are
told from the text ahead. How that text goes on matters little: once a run ends
in a character that is no blank, the text after the run can only decide whether a
blank follows.
-/

set_option autoImplicit false

namespace Stencil

namespace Pattern

theorem blanks_eq_some_iff {t : Text} {n : Nat} :
    blanks t = some n ↔ ∃ w rest, t = w ++ rest ∧ Blanks w ∧ w ≠ [] ∧
      (∀ c ∈ rest.head?, isBlank c = false) ∧ n = w.length := by
  have hsplit := leadingBlanks_append_trimStart t
  constructor
  · intro h
    refine ⟨leadingBlanks t, trimStart t, hsplit.symm, blanks_leadingBlanks t, ?_,
      head?_trimStart t, ?_⟩
    · intro hnil
      rw [leadingBlanks] at hnil
      simp [blanks, oneOrMore, hnil] at h
    · unfold blanks oneOrMore at h
      split at h
      · cases h
      · simpa [leadingBlanks] using h.symm
  · rintro ⟨w, rest, rfl, hw, hne, hrest, rfl⟩
    have hrun := leadingBlanks_append hw hrest
    rw [leadingBlanks] at hrun
    unfold blanks oneOrMore
    rw [hrun]
    cases w with
    | nil => exact absurd rfl hne
    | cons c w => rfl

theorem literal_eq_some_iff {word t : Text} {n : Nat} :
    literal word t = some n ↔ ∃ rest, t = word ++ rest ∧ n = word.length := by
  unfold literal
  constructor
  · intro h
    split at h
    next hp =>
      obtain ⟨rest, rfl⟩ := List.isPrefixOf_iff_prefix.mp hp
      exact ⟨rest, rfl, by simpa using h.symm⟩
    next => cases h
  · rintro ⟨rest, rfl, rfl⟩
    rw [if_pos (List.isPrefixOf_iff_prefix.mpr (List.prefix_append word rest))]

theorem followedBy_eq_some_iff {first second : Pattern} {t : Text} {n : Nat} :
    first.followedBy second t = some n ↔
      ∃ m k, first t = some m ∧ second (t.drop m) = some k ∧ n = m + k := by
  simp only [followedBy, bind, Option.bind_eq_some_iff, pure, Option.some.injEq]
  constructor
  · rintro ⟨m, hm, k, hk, rfl⟩
    exact ⟨m, k, hm, hk, rfl⟩
  · rintro ⟨m, k, hm, hk, rfl⟩
    exact ⟨m, hm, k, hk, rfl⟩

/-- A marker is blanks, the word, and all the blanks after it. -/
theorem conditionMarker_eq_some_iff {t : Text} {n : Nat} :
    conditionMarker t = some n ↔ ∃ v w rest, t = v ++ 'i' :: 'f' :: w ++ rest ∧ Blanks v ∧
      v ≠ [] ∧ Blanks w ∧ w ≠ [] ∧ (∀ c ∈ rest.head?, isBlank c = false) ∧
      n = v.length + 2 + w.length := by
  simp only [conditionMarker, followedBy_eq_some_iff, blanks_eq_some_iff, literal_eq_some_iff]
  constructor
  · rintro ⟨_, _, ⟨v, after, rfl, hv, hvne, _, rfl⟩, ⟨_, _, ⟨after', ha, rfl⟩,
      ⟨w, rest, hr, hw, hwne, hrest, rfl⟩, rfl⟩, rfl⟩
    rw [List.drop_left] at ha
    subst ha
    rw [List.drop_left, List.drop_left] at hr
    subst hr
    exact ⟨v, w, rest, by simp, hv, hvne, hw, hwne, hrest, by simp; omega⟩
  · rintro ⟨v, w, rest, rfl, hv, hvne, hw, hwne, hrest, rfl⟩
    have hi : isBlank 'i' = false := by decide
    refine ⟨v.length, 2 + w.length,
      ⟨v, 'i' :: 'f' :: w ++ rest, by simp, hv, hvne, by simp [hi], rfl⟩,
      ⟨2, w.length, ⟨w ++ rest, by simp, rfl⟩, ⟨w, rest, by simp, hw, hwne, hrest, rfl⟩, rfl⟩,
      by omega⟩

end Pattern

namespace Item

def marks (t : Text) : Bool := (Pattern.conditionMarker t).isSome

theorem marks_iff {t : Text} :
    marks t = true ↔ ∃ v b rest, t = v ++ 'i' :: 'f' :: b :: rest ∧ Blanks v ∧ v ≠ [] ∧
      isBlank b = true := by
  rw [marks, Option.isSome_iff_exists]
  simp only [Pattern.conditionMarker_eq_some_iff]
  constructor
  · rintro ⟨_, v, w, rest, rfl, hv, hvne, hw, hwne, _, _⟩
    cases w with
    | nil => exact absurd rfl hwne
    | cons b w => exact ⟨v, b, w ++ rest, by simp, hv, hvne, hw b (by simp)⟩
  · rintro ⟨v, b, rest, rfl, hv, hvne, hb⟩
    refine ⟨_, v, b :: leadingBlanks rest, trimStart rest, ?_, hv, hvne, ?_, by simp,
      head?_trimStart rest, rfl⟩
    · simp [leadingBlanks_append_trimStart]
    · exact List.forall_mem_cons.mpr ⟨hb, blanks_leadingBlanks rest⟩

def IsMarked (t rest : Text) : Prop :=
  ∃ v w, t = v ++ 'i' :: 'f' :: w ++ rest ∧ Blanks v ∧ v ≠ [] ∧ Blanks w ∧ w ≠ [] ∧
    ∀ c ∈ rest.head?, isBlank c = false

theorem marks_iff_exists_isMarked {t : Text} : marks t = true ↔ ∃ rest, IsMarked t rest := by
  rw [marks, Option.isSome_iff_exists]
  simp only [Pattern.conditionMarker_eq_some_iff]
  constructor
  · rintro ⟨_, v, w, rest, ht, hv, hvne, hw, hwne, hrest, _⟩
    exact ⟨rest, v, w, ht, hv, hvne, hw, hwne, hrest⟩
  · rintro ⟨rest, v, w, ht, hv, hvne, hw, hwne, hrest⟩
    exact ⟨_, v, w, rest, ht, hv, hvne, hw, hwne, hrest, rfl⟩

theorem head?_of_marks {t : Text} (h : marks t = true) : ∃ b ∈ t.head?, isBlank b = true := by
  obtain ⟨v, d, rest, rfl, hv, hvne, _⟩ := marks_iff.mp h
  cases v with
  | nil => exact absurd rfl hvne
  | cons b v => exact ⟨b, rfl, hv b (by simp)⟩

theorem marks_cons {b : Char} {t : Text} (hb : isBlank b = true) (h : marks t = true) :
    marks (b :: t) = true := by
  obtain ⟨v, d, rest, rfl, hv, _, hd⟩ := marks_iff.mp h
  exact marks_iff.mpr ⟨b :: v, d, rest, rfl, List.forall_mem_cons.mpr ⟨hb, hv⟩, by simp, hd⟩

theorem marks_append {u : Text} (h : marks u = true) (r : Text) : marks (u ++ r) = true := by
  obtain ⟨v, b, rest, rfl, hv, hvne, hb⟩ := marks_iff.mp h
  exact marks_iff.mpr ⟨v, b, rest ++ r, by simp, hv, hvne, hb⟩

theorem marks_append_eq_false {u r r' : Text} (hne : u ≠ [])
    (hlast : ∀ c ∈ u.getLast?, isBlank c = false)
    (hblank : ∀ b ∈ r'.head?, isBlank b = true → ∃ d ∈ r.head?, isBlank d = true)
    (hf : 'f' ∉ r'.head?) (h : marks (u ++ r) = false) : marks (u ++ r') = false := by
  cases hm : marks (u ++ r') with
  | false => rfl
  | true =>
    exfalso
    obtain ⟨v, b, rest, ht, hv, hvne, hb⟩ := marks_iff.mp hm
    have htrue : marks (u ++ r) = true → False := by simp [h]
    rcases List.append_eq_append_iff.mp ht with ⟨x, rfl, _⟩ | ⟨x, rfl, hx⟩
    · exact hne (eq_nil_of_blanks (blanks_append_iff.mp hv).1 hlast)
    · match x, hx with
      | [], _ =>
        rw [List.append_nil] at hlast
        exact hvne (eq_nil_of_blanks hv hlast)
      | [_], hx =>
        obtain ⟨rfl, rfl⟩ : 'i' = _ ∧ 'f' :: b :: rest = r' := by simpa using hx
        simp at hf
      | [_, _], hx =>
        obtain ⟨rfl, rfl, rfl⟩ : 'i' = _ ∧ 'f' = _ ∧ b :: rest = r' := by simpa using hx
        obtain ⟨d, hd, hdb⟩ := hblank b (by simp) hb
        obtain ⟨r, rfl⟩ := List.head?_eq_some_iff.mp hd
        exact htrue (marks_iff.mpr ⟨v, d, r, by simp, hv, hvne, hdb⟩)
      | _ :: _ :: _ :: z, hx =>
        obtain ⟨rfl, rfl, rfl, rfl⟩ : 'i' = _ ∧ 'f' = _ ∧ b = _ ∧ rest = z ++ r' := by
          simpa using hx
        exact htrue (marks_append (marks_iff.mpr ⟨v, b, z, by simp, hv, hvne, hb⟩) r)

theorem marks_blanks_append {v w t : Text} (hv : Blanks v) (hw : Blanks w) (hwne : w ≠ [])
    (ht : ∀ c ∈ t.head?, isBlank c = false) (h : marks (v ++ t) = true) :
    marks (w ++ t) = true := by
  obtain ⟨x, b, rest, hx, hxb, _, hb⟩ := marks_iff.mp h
  have hi : isBlank 'i' = false := by decide
  have hrun := congrArg trimStart hx
  rw [trimStart_append hv, trimStart_eq_self ht, trimStart_append hxb,
    trimStart_eq_self (by simp [hi])] at hrun
  exact marks_iff.mpr ⟨w, b, rest, by rw [hrun], hw, hwne, hb⟩

theorem marks_eq_false {t : Text} (h : ∀ c ∈ t.head?, isBlank c = false) : marks t = false := by
  cases hm : marks t with
  | false => rfl
  | true =>
    obtain ⟨v, b, rest, rfl, hv, hvne, hb⟩ := marks_iff.mp hm
    cases v with
    | nil => exact absurd rfl hvne
    | cons c v => simpa [hv c (by simp)] using h c rfl

theorem endsKey_iff {t : Text} :
    endsKey t = true ↔ ∃ b rest, t = ':' :: b :: rest ∧ isBlank b = true := by
  constructor
  · intro h
    unfold endsKey at h
    split at h
    next b rest => exact ⟨b, rest, rfl, h⟩
    next => cases h
  · rintro ⟨b, rest, rfl, hb⟩
    exact hb

theorem endsKey_append_eq_false {u r r' : Text} (hne : u ≠ [])
    (hblank : ∀ b ∈ r'.head?, isBlank b = true → ∃ d ∈ r.head?, isBlank d = true)
    (h : endsKey (u ++ r) = false) : endsKey (u ++ r') = false := by
  cases hk : endsKey (u ++ r') with
  | false => rfl
  | true =>
    exfalso
    obtain ⟨b, rest, ht, hb⟩ := endsKey_iff.mp hk
    match u, hne, ht with
    | [c], _, ht =>
      obtain ⟨rfl, rfl⟩ : c = ':' ∧ r' = b :: rest := by simpa using ht
      obtain ⟨d, hd, hdb⟩ := hblank b (by simp) hb
      obtain ⟨r, rfl⟩ := List.head?_eq_some_iff.mp hd
      simp [endsKey, hdb] at h
    | c :: d :: u, _, ht =>
      obtain ⟨rfl, rfl, _⟩ : c = ':' ∧ d = b ∧ u ++ r' = rest := by simpa using ht
      simp [endsKey, hb] at h

def stops (keyed : Bool) (t : Text) : Bool := !keyed && endsKey t || marks t

/-- No separator begins in a run, neither before one text nor before another, if
the other begins with a blank only where the one does. -/
theorem stops_append_eq_false {keyed : Bool} {u r r' : Text} (hne : u ≠ [])
    (hlast : ∀ c ∈ u.getLast?, isBlank c = false)
    (hblank : ∀ b ∈ r'.head?, isBlank b = true → ∃ d ∈ r.head?, isBlank d = true)
    (hf : 'f' ∉ r'.head?) (h : stops keyed (u ++ r) = false) : stops keyed (u ++ r') = false := by
  obtain ⟨hk, hm⟩ := Bool.or_eq_false_iff.mp h
  refine Bool.or_eq_false_iff.mpr ⟨?_, marks_append_eq_false hne hlast hblank hf hm⟩
  cases keyed with
  | true => rfl
  | false => simpa using endsKey_append_eq_false hne hblank (by simpa using hk)

end Item

end Stencil
