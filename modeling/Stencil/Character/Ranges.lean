import Stencil.Text.Basic

/-!
# Ranges of characters

A property of characters is a table of ranges of their numbers, both ends
included. The ranges ascend and stay apart, so a search ends at the first range
that begins beyond the number. The tables of properties are those of Unicode 17,
unless they say that they hold more.
-/

set_option autoImplicit false

namespace Stencil

def ascendFrom (least : Nat) : List (Nat × Nat) → Bool
  | [] => true
  | (first, last) :: rest =>
    decide (least ≤ first) && decide (first ≤ last) && ascendFrom (last + 1) rest

structure Ranges where
  list : List (Nat × Nat)
  ascend : ascendFrom 0 list = true := by decide +kernel

def searchRanges (n : Nat) : List (Nat × Nat) → Bool
  | [] => false
  | (first, last) :: rest => decide (first ≤ n) && (decide (n ≤ last) || searchRanges n rest)

theorem le_of_ascendFrom {least : Nat} {ranges : List (Nat × Nat)}
    (h : ascendFrom least ranges = true) {range : Nat × Nat} (hr : range ∈ ranges) :
    least ≤ range.1 := by
  induction ranges generalizing least with
  | nil => simp at hr
  | cons head rest ih =>
    simp only [ascendFrom, Bool.and_eq_true, decide_eq_true_eq] at h
    rcases List.mem_cons.1 hr with rfl | hr
    · exact h.1.1
    · have := ih h.2 hr
      omega

theorem searchRanges_iff {n least : Nat} {ranges : List (Nat × Nat)}
    (h : ascendFrom least ranges = true) :
    searchRanges n ranges = true ↔ ∃ range ∈ ranges, range.1 ≤ n ∧ n ≤ range.2 := by
  induction ranges generalizing least with
  | nil => simp [searchRanges]
  | cons head rest ih =>
    simp only [ascendFrom, Bool.and_eq_true, decide_eq_true_eq] at h
    simp only [searchRanges, Bool.and_eq_true, Bool.or_eq_true, decide_eq_true_eq, ih h.2,
      List.mem_cons, exists_eq_or_imp]
    constructor
    · rintro ⟨hn, hl | hl⟩
      · exact .inl ⟨hn, hl⟩
      · exact .inr hl
    · rintro (⟨hn, hl⟩ | ⟨range, hr, hn, hl⟩)
      · exact ⟨hn, .inl hl⟩
      · have := le_of_ascendFrom h.2 hr
        exact ⟨by omega, .inr ⟨range, hr, hn, hl⟩⟩

namespace Ranges

def contains (ranges : Ranges) (c : Char) : Bool := searchRanges c.toNat ranges.list

/-- The search ends early and misses no range. -/
theorem contains_iff {ranges : Ranges} {c : Char} :
    ranges.contains c = true ↔ ∃ range ∈ ranges.list, range.1 ≤ c.toNat ∧ c.toNat ≤ range.2 :=
  searchRanges_iff ranges.ascend

end Ranges

end Stencil
