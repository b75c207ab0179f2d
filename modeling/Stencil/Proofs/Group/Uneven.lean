import Mathlib.Data.List.Basic
import Mathlib.Data.List.Induction
import Stencil.Proofs.Group

/-!
# Groups and even beginnings

A group ends where its closers are first as many as its openers. One character changes
either count by one at most, so a text that begins with its opener has more openers than
closers until the two are even for the first time. To say where a group ends, or that it
never does, it is enough to look for even beginnings.
-/

set_option autoImplicit false

namespace Stencil

def Uneven (opener closer : Char) (text : Text) : Prop :=
  ∀ s, s <+: text → s ≠ [] → s.count closer ≠ s.count opener

/-- The text has as many closers as openers, and no shorter beginning of it has, the empty one
apart. -/
structure FirstEven (opener closer : Char) (text : Text) : Prop where
  even : text.count closer = text.count opener
  shortest : ∀ s, s <+: text → s ≠ [] → s ≠ text → s.count closer ≠ s.count opener

variable {opener closer : Char} {text : Text}

theorem Uneven.of_prefix {s : Text} (h : Uneven opener closer text) (hs : s <+: text) :
    Uneven opener closer s :=
  fun t ht => h t (ht.trans hs)

theorem Uneven.leads (hne : opener ≠ closer) (ho : text.head? = some opener)
    (h : Uneven opener closer text) : text.count closer < text.count opener := by
  -- From the end of the text, since each beginning of it is uneven too.
  induction text using List.reverseRecOn with
  | nil => cases ho
  | append_singleton s c ih =>
    by_cases hs : s = []
    · subst hs
      obtain rfl : c = opener := by simpa using ho
      simp [hne]
    · have hhead : s.head? = some opener := by
        rwa [List.head?_append_of_ne_nil _ hs] at ho
      have hlt := ih hhead (h.of_prefix (List.prefix_append s [c]))
      have hhere := h (s ++ [c]) (List.prefix_refl _) (by simp)
      rw [List.count_append, List.count_append] at hhere ⊢
      have hone : [c].count closer ≤ 1 := List.count_le_length
      omega

/-- What a group is by the order of its brackets, it is by its even beginnings. -/
theorem enclosed_iff_firstEven (hne : opener ≠ closer) :
    Enclosed opener closer text ↔ text.head? = some opener ∧ FirstEven opener closer text := by
  constructor
  · intro h
    refine ⟨h.opens, h.balance.symm, ?_⟩
    rintro s ⟨after, rfl⟩ hs hshort
    have hafter : after ≠ [] := by
      rintro rfl
      exact hshort (List.append_nil s).symm
    exact Nat.ne_of_lt (h.leads s after rfl hs hafter)
  · rintro ⟨ho, heven, hshortest⟩
    refine ⟨ho, heven.symm, ?_⟩
    rintro before after rfl hbefore hafter
    apply Uneven.leads hne
    · rwa [List.head?_append_of_ne_nil _ hbefore] at ho
    · intro s hs hsne
      refine hshortest s (hs.trans (List.prefix_append before after)) hsne ?_
      rintro rfl
      have := hs.length_le
      have := List.length_pos_iff.mpr hafter
      rw [List.length_append] at *
      omega

theorem splitGroup?_eq_some_iff_firstEven (hne : opener ≠ closer) {s rest : Text} :
    splitGroup? opener closer 0 text = some (s, rest) ↔
      text = s ++ rest ∧ FirstEven opener closer (opener :: s) := by
  rw [splitGroup?_eq_some_iff hne, ← enclosed_cons_iff hne, enclosed_iff_firstEven hne,
    List.head?_cons]
  exact and_congr_right' (and_iff_right rfl)

theorem splitGroup?_eq_none_iff_uneven (hne : opener ≠ closer) :
    splitGroup? opener closer 0 text = none ↔ Uneven opener closer (opener :: text) := by
  rw [splitGroup?_eq_none_iff hne]
  constructor
  · intro h s hs hsne
    cases s with
    | nil => exact absurd rfl hsne
    | cons c s =>
      obtain ⟨rfl, after, rfl⟩ : c = opener ∧ s <+: text := List.cons_prefix_cons.mp hs
      have hle := h s after rfl
      simp only [List.count_cons_self, List.count_cons_of_ne hne]
      omega
  · rintro h before after rfl
    have hlt := (h.of_prefix (s := opener :: before) ⟨after, rfl⟩).leads hne rfl
    simp only [List.count_cons_self, List.count_cons_of_ne hne] at hlt
    omega

end Stencil
