import Stencil.Bracket

/-!
# The balance of a bracket group

A group is told by counting alone: it begins with its opener, has as many
closers as openers of its kind, and before its end the openers always lead.
The group that a scan cuts off is exactly such a text, and what follows it has
no say in where it ends.
-/

set_option autoImplicit false

namespace Stencil

/-- What follows the opener of a group with `depth` groups of the same kind open
inside it: the last character is the first closer that leaves none open. -/
structure Closes (opener closer : Char) (depth : Nat) (text : Text) : Prop where
  balance : text.count closer = text.count opener + depth + 1
  within : ∀ before after, text = before ++ after → after ≠ [] →
    before.count closer ≤ before.count opener + depth

structure Enclosed (opener closer : Char) (text : Text) : Prop where
  opens : text.head? = some opener
  balance : text.count opener = text.count closer
  leads : ∀ before after, text = before ++ after → before ≠ [] → after ≠ [] →
    before.count closer < before.count opener

section Scan

variable {opener closer c : Char} {depth : Nat} {text s rest : Text}

theorem splitGroup?_opener :
    splitGroup? opener closer depth (opener :: text) =
      (splitGroup? opener closer (depth + 1) text).map (consFirst opener) := by
  cases depth <;> simp [splitGroup?]

theorem splitGroup?_closer_zero (hne : opener ≠ closer) :
    splitGroup? opener closer 0 (closer :: text) = some ([closer], text) := by
  simp [splitGroup?, hne.symm]

theorem splitGroup?_closer_succ (hne : opener ≠ closer) :
    splitGroup? opener closer (depth + 1) (closer :: text) =
      (splitGroup? opener closer depth text).map (consFirst closer) := by
  simp [splitGroup?, hne.symm]

theorem splitGroup?_other (ho : c ≠ opener) (hc : c ≠ closer) :
    splitGroup? opener closer depth (c :: text) =
      (splitGroup? opener closer depth text).map (consFirst c) := by
  cases depth <;> simp [splitGroup?, ho, hc]

theorem splitGroup?_self : splitGroup? opener opener depth text = none := by
  induction text generalizing depth with
  | nil => rfl
  | cons c text ih =>
    by_cases hc : c = opener
    · rw [hc, splitGroup?_opener, ih]
      rfl
    · rw [splitGroup?_other hc hc, ih]
      rfl

theorem not_closes_nil : ¬ Closes opener closer depth [] := by
  intro h
  have := h.balance
  simp at this

theorem closes_cons {depth' : Nat}
    (hcount : ∀ s : Text, (c :: s).count closer + s.count opener + depth' =
      s.count closer + (c :: s).count opener + depth) :
    Closes opener closer depth (c :: text) ↔ Closes opener closer depth' text := by
  constructor
  · intro h
    refine ⟨?_, ?_⟩
    · have := h.balance
      have := hcount text
      omega
    · intro before after ht hafter
      have := h.within (c :: before) after (by rw [ht]; rfl) hafter
      have := hcount before
      omega
  · intro h
    refine ⟨?_, ?_⟩
    · have := h.balance
      have := hcount text
      omega
    · intro before after ht hafter
      cases before with
      | nil => simp
      | cons b before =>
        obtain ⟨rfl, ht'⟩ : c = b ∧ text = before ++ after := by simpa using ht
        have := h.within before after ht' hafter
        have := hcount before
        omega

theorem closes_closer_zero (hne : opener ≠ closer) :
    Closes opener closer 0 (closer :: text) ↔ text = [] := by
  constructor
  · intro h
    cases text with
    | nil => rfl
    | cons c text =>
      have := h.within [closer] (c :: text) rfl (by simp)
      simp [hne.symm] at this
  · rintro rfl
    refine ⟨by simp [hne.symm], ?_⟩
    intro before after h hafter
    rcases List.append_eq_singleton_iff.mp h.symm with ⟨rfl, _⟩ | ⟨_, rfl⟩
    · simp
    · exact absurd rfl hafter

/-- A scan ends at a closer that leaves no group open. Past any other character it goes on,
at the depth to which this character moves it. -/
theorem splitGroup?_cons_cases (hne : opener ≠ closer) (c : Char) (depth : Nat) :
    c = closer ∧ depth = 0 ∨ ∃ depth',
      (∀ s : Text, (c :: s).count closer + s.count opener + depth' =
        s.count closer + (c :: s).count opener + depth) ∧
      ∀ text, splitGroup? opener closer depth (c :: text) =
        (splitGroup? opener closer depth' text).map (consFirst c) := by
  by_cases ho : c = opener
  · subst ho
    exact .inr ⟨depth + 1, by intro s; simp [hne]; omega, fun _ => splitGroup?_opener⟩
  by_cases hc : c = closer
  · subst hc
    cases depth with
    | zero => exact .inl ⟨rfl, rfl⟩
    | succ depth =>
      exact .inr ⟨depth, by intro s; simp [ho]; omega, fun _ => splitGroup?_closer_succ hne⟩
  · exact .inr ⟨depth, by intro s; simp [ho, hc], fun _ => splitGroup?_other ho hc⟩

/-- A scan cuts off what counting calls the rest of the group, and that only. -/
theorem splitGroup?_eq_some_iff (hne : opener ≠ closer) :
    splitGroup? opener closer depth text = some (s, rest) ↔
      text = s ++ rest ∧ Closes opener closer depth s := by
  induction text generalizing depth s with
  | nil =>
    constructor
    · intro h
      simp [splitGroup?] at h
    · rintro ⟨hs, hc⟩
      obtain ⟨rfl, _⟩ := List.append_eq_nil_iff.mp hs.symm
      exact absurd hc not_closes_nil
  | cons c text ih =>
    rcases splitGroup?_cons_cases hne c depth with ⟨rfl, rfl⟩ | ⟨depth', hcount, hstep⟩
    · rw [splitGroup?_closer_zero hne]
      constructor
      · intro h
        obtain ⟨rfl, rfl⟩ : [c] = s ∧ text = rest := by simpa using h
        exact ⟨rfl, (closes_closer_zero hne).mpr rfl⟩
      · rintro ⟨ht, hs⟩
        cases s with
        | nil => exact absurd hs not_closes_nil
        | cons b s =>
          obtain ⟨rfl, rfl⟩ : c = b ∧ text = s ++ rest := by simpa using ht
          obtain rfl := (closes_closer_zero hne).mp hs
          rfl
    · rw [hstep, map_consFirst_eq_some]
      constructor
      · rintro ⟨s', hs', rfl⟩
        obtain ⟨rfl, hc⟩ := ih.mp hs'
        exact ⟨rfl, (closes_cons hcount).mpr hc⟩
      · rintro ⟨ht, hc⟩
        cases s with
        | nil => exact absurd hc not_closes_nil
        | cons b s =>
          obtain ⟨rfl, rfl⟩ : c = b ∧ text = s ++ rest := by simpa using ht
          exact ⟨s, ih.mpr ⟨rfl, (closes_cons hcount).mp hc⟩, rfl⟩

theorem splitGroup?_eq_none_iff (hne : opener ≠ closer) :
    splitGroup? opener closer depth text = none ↔ ∀ before after, text = before ++ after →
      before.count closer ≤ before.count opener + depth := by
  induction text generalizing depth with
  | nil =>
    refine ⟨fun _ before after ht => ?_, fun _ => rfl⟩
    rw [(List.append_eq_nil_iff.mp ht.symm).1]
    simp
  | cons c text ih =>
    rcases splitGroup?_cons_cases hne c depth with ⟨rfl, rfl⟩ | ⟨depth', hcount, hstep⟩
    · rw [splitGroup?_closer_zero hne]
      refine ⟨fun h => (by cases h), fun h => ?_⟩
      have := h [c] text rfl
      simp [hne.symm] at this
    · rw [hstep, Option.map_eq_none_iff, ih]
      constructor
      · intro h before after ht
        cases before with
        | nil => simp
        | cons b before =>
          obtain ⟨rfl, ht'⟩ : c = b ∧ text = before ++ after := by simpa using ht
          have := h before after ht'
          have := hcount before
          omega
      · intro h before after ht
        have := h (c :: before) after (by rw [ht]; rfl)
        have := hcount before
        omega

/-- A scan that comes to the end of a text goes on in what follows, at the depth at which the text
leaves it. -/
theorem splitGroup?_append (hne : opener ≠ closer)
    (h : splitGroup? opener closer depth text = none) :
    ∃ depth', depth' + text.count closer = depth + text.count opener ∧ ∀ rest,
      splitGroup? opener closer depth (text ++ rest) =
        (splitGroup? opener closer depth' rest).map fun cut => (text ++ cut.1, cut.2) := by
  induction text generalizing depth with
  | nil => exact ⟨depth, rfl, fun rest => by simp⟩
  | cons c text ih =>
    rcases splitGroup?_cons_cases hne c depth with ⟨rfl, rfl⟩ | ⟨next, hcount, hstep⟩
    · rw [splitGroup?_closer_zero hne] at h
      cases h
    · rw [hstep, Option.map_eq_none_iff] at h
      obtain ⟨depth', hdepth, hrest⟩ := ih h
      refine ⟨depth', ?_, fun rest => ?_⟩
      · have := hcount text
        omega
      · rw [List.cons_append, hstep, hrest, Option.map_map]
        rfl

theorem splitGroup?_replicate (hne : opener ≠ closer) (depth j : Nat) :
    splitGroup? opener closer depth (List.replicate j closer) =
      if j ≤ depth then none
      else some (List.replicate (depth + 1) closer, List.replicate (j - (depth + 1)) closer) := by
  induction j generalizing depth with
  | zero => simp [splitGroup?]
  | succ j ih =>
    rw [List.replicate_succ]
    cases depth with
    | zero => simp [splitGroup?_closer_zero hne]
    | succ depth =>
      rw [splitGroup?_closer_succ hne, ih]
      by_cases hj : j ≤ depth
      · simp [hj]
      · simp [hj, consFirst, List.replicate_succ]

end Scan

theorem enclosed_cons_iff {opener closer : Char} (hne : opener ≠ closer) {inside : Text} :
    Enclosed opener closer (opener :: inside) ↔ Closes opener closer 0 inside := by
  constructor
  · intro h
    refine ⟨?_, ?_⟩
    · have := h.balance
      simp [hne] at this
      omega
    · intro before after ht hafter
      have := h.leads (opener :: before) after (by rw [ht]; rfl) (by simp) hafter
      simp [hne] at this
      omega
  · intro h
    refine ⟨rfl, ?_, ?_⟩
    · have := h.balance
      simp [hne]
      omega
    · intro before after ht hbefore hafter
      cases before with
      | nil => exact absurd rfl hbefore
      | cons b before =>
        obtain ⟨rfl, ht'⟩ : opener = b ∧ inside = before ++ after := by simpa using ht
        have := h.within before after ht' hafter
        simp [hne]
        omega

theorem splitGroup?_of_enclosed {opener closer : Char} (hne : opener ≠ closer) {inside : Text}
    (h : Enclosed opener closer (opener :: inside)) (rest : Text) :
    splitGroup? opener closer 0 (inside ++ rest) = some (inside, rest) :=
  (splitGroup?_eq_some_iff hne).mpr ⟨rfl, (enclosed_cons_iff hne).mp h⟩

theorem enclosed_of_splitGroup? {opener closer : Char} (hne : opener ≠ closer)
    {text inside rest : Text} (h : splitGroup? opener closer 0 text = some (inside, rest)) :
    Enclosed opener closer (opener :: inside) :=
  (enclosed_cons_iff hne).mpr ((splitGroup?_eq_some_iff hne).mp h).2

theorem Enclosed.exists_inside {opener closer : Char} (hne : opener ≠ closer) {text : Text}
    (h : Enclosed opener closer text) : ∃ inside, text = opener :: inside ++ [closer] := by
  obtain ⟨rest, rfl⟩ := List.head?_eq_some_iff.mp h.opens
  obtain ⟨inside, rfl, _⟩ := eq_append_of_splitGroup? (splitGroup?_of_enclosed hne h [])
  exact ⟨inside, rfl⟩

theorem Enclosed.splitGroup?_inside {opener closer : Char} (hne : opener ≠ closer)
    {before rest : Text}
    (h : Enclosed opener closer (opener :: (before ++ opener :: rest) ++ [closer])) :
    splitGroup? opener closer 0 rest ≠ none := by
  -- Before the inner opener the openers lead, and after it the closers never do: with the last
  -- closer the two cannot come out even.
  intro hnone
  have hrest := (splitGroup?_eq_none_iff hne).mp hnone rest [] (List.append_nil rest).symm
  have hlead := h.leads (opener :: before) (opener :: rest ++ [closer]) (by simp) (by simp)
    (by simp)
  have hbalance := h.balance
  simp only [List.cons_append, List.count_cons, List.count_append, List.count_nil, beq_self_eq_true,
    beq_iff_eq, hne, hne.symm, if_true, if_false] at hrest hlead hbalance
  omega

/-- Only the brackets of its kind decide whether a text is enclosed. -/
theorem Enclosed.of_filter {opener closer : Char} (hne : opener ≠ closer) {kind : Char → Bool}
    (ho : kind opener = true) (hc : kind closer = true) {s t : Text}
    (h : Enclosed opener closer (opener :: (s ++ [closer])))
    (hf : s.filter kind = t.filter kind) : Enclosed opener closer (opener :: (t ++ [closer])) := by
  have hcloses := (enclosed_cons_iff hne).mp h
  have hcount : ∀ {u v : Text}, u.filter kind = v.filter kind →
      u.count opener = v.count opener ∧ u.count closer = v.count closer := by
    intro u v huv
    rw [← List.count_filter ho, ← List.count_filter hc, huv, List.count_filter ho,
      List.count_filter hc]
    exact ⟨rfl, rfl⟩
  refine (enclosed_cons_iff hne).mpr ⟨?_, ?_⟩
  · have := hcloses.balance
    have := hcount hf
    simp only [List.count_append] at *
    omega
  · intro before after ht hafter
    -- What is before the end of one text is matched by what is before the end of the other.
    have hprefix : before <+: t := by
      rw [← List.dropLast_concat_getLast hafter, ← List.append_assoc] at ht
      exact ⟨after.dropLast, ((List.append_inj' ht rfl).1).symm⟩
    obtain ⟨before', ⟨rest, rfl⟩, hb⟩ : ∃ u, u <+: s ∧ before.filter kind = u.filter kind := by
      rw [← List.prefix_filter_iff, hf]
      exact hprefix.filter kind
    have := hcloses.within before' (rest ++ [closer]) (by simp) (by simp)
    have := hcount hb
    omega

end Stencil
