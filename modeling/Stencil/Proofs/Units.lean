import Mathlib.Data.Nat.Find
import Stencil.Proofs.Group.Uneven
import Stencil.Proofs.Segment

/-!
# The units of a text

The units of a text say from the left how it is read, without a scan: a bracket group,
which ends where its brackets are first even, a quoted run, or one other character. An
opener whose brackets are never even stands for itself. Every text has one list of units,
and up to the first such opener its units are its lexemes.
-/

set_option autoImplicit false

namespace Stencil

/-- The text begins with an opener, and no beginning of it has as many of its closers. -/
def LeftOpen (text : Text) : Prop :=
  ∃ opener closer rest, closer? opener = some closer ∧ text = opener :: rest ∧
    Uneven opener closer text

inductive FirstUnit : Text → Text → Prop
  | group {opener closer : Char} {unit : Text} (hc : closer? opener = some closer)
      (ho : unit.head? = some opener) (h : FirstEven opener closer unit) (rest : Text) :
      FirstUnit unit rest
  | quoted {quote : Char} {inside : Text} (hq : isQuote quote = true) (h : quote ∉ inside)
      (rest : Text) : FirstUnit (quote :: inside ++ [quote]) rest
  | openQuote {quote : Char} {inside : Text} (hq : isQuote quote = true) (h : quote ∉ inside) :
      FirstUnit (quote :: inside) []
  | single {c : Char} {rest : Text} (hq : isQuote c = false)
      (h : closer? c ≠ none → LeftOpen (c :: rest)) : FirstUnit [c] rest

inductive Units : Text → List Text → Prop
  | nil : Units [] []
  | cons {unit rest : Text} {units : List Text} (h : FirstUnit unit rest) (hr : Units rest units) :
      Units (unit ++ rest) (unit :: units)

structure FirstAt (P : Text → Prop) (units : List Text) (n : Nat) : Prop where
  holds : P (units.drop n).flatten
  earlier : ∀ k, k < n → ¬ P (units.drop k).flatten

theorem FirstAt.unique {P : Text → Prop} {units : List Text} {m n : Nat} (hm : FirstAt P units m)
    (hn : FirstAt P units n) : m = n := by
  rcases Nat.lt_trichotomy m n with hlt | rfl | hlt
  · exact absurd hm.holds (hn.earlier m hlt)
  · rfl
  · exact absurd hn.holds (hm.earlier n hlt)

theorem exists_firstAt {P : Text → Prop} {units : List Text} {n : Nat}
    (h : P (units.drop n).flatten) : ∃ m, FirstAt P units m := by
  classical
  have hex : ∃ n, P (units.drop n).flatten := ⟨n, h⟩
  exact ⟨Nat.find hex, Nat.find_spec hex, fun _ hk => Nat.find_min hex hk⟩

theorem leftOpen_of_splitGroup? {opener closer : Char} {rest : Text}
    (hc : closer? opener = some closer) (h : splitGroup? opener closer 0 rest = none) :
    LeftOpen (opener :: rest) :=
  ⟨opener, closer, rest, hc, rfl,
    (splitGroup?_eq_none_iff_uneven (bracketing_closer?.ne hc)).mp h⟩

theorem LeftOpen.read {opener : Char} {rest : Text} (h : LeftOpen (opener :: rest)) :
    Lexeme.read closer? (opener :: rest) = [.unclosed opener (opener :: rest)] := by
  obtain ⟨_, closer, _, hc, heq, huneven⟩ := h
  obtain ⟨rfl, rfl⟩ := List.cons.inj heq
  apply Lexeme.read_unclosed hc
  exact (splitGroup?_eq_none_iff_uneven (bracketing_closer?.ne hc)).mpr huneven

namespace FirstUnit

variable {unit rest unit' rest' : Text}

theorem ne_nil (h : FirstUnit unit rest) : unit ≠ [] := by
  cases h with
  | group _ ho => exact List.ne_nil_of_mem (List.mem_of_mem_head? ho)
  | quoted => simp
  | openQuote => simp
  | single => simp

/-- The first unit of a text is its first lexeme, or an opener that is left open. -/
theorem cases_read (h : FirstUnit unit rest) :
    (∃ lexeme, Lexeme.read closer? (unit ++ rest) = lexeme :: Lexeme.read closer? rest ∧
      lexeme.text = unit ∧ lexeme.isUnclosed = false) ∨
    ∃ opener, unit = [opener] ∧ LeftOpen (opener :: rest) := by
  cases h with
  | @group opener closer unit hc ho h rest =>
    have henclosed := (enclosed_iff_firstEven (bracketing_closer?.ne hc)).mpr ⟨ho, h⟩
    have hclosed : Lexeme.Closed closer? (.group opener unit) := .group hc henclosed
    exact .inl ⟨_, hclosed.read_append bracketing_closer? rest, rfl, rfl⟩
  | @quoted quote inside hq h rest =>
    have hclosed := Lexeme.Closed.quoted (bracketing_closer?.of_isQuote hq) hq h
    exact .inl ⟨_, hclosed.read_append bracketing_closer? rest, rfl, rfl⟩
  | @openQuote quote inside hq h =>
    have htrailing := Lexeme.Trailing.quoted (bracketing_closer?.of_isQuote hq) hq h
    refine .inl ⟨.quoted (quote :: inside), ?_, rfl, rfl⟩
    rw [List.append_nil, Lexeme.read_nil]
    exact htrailing.read
  | @single c rest hq h =>
    by_cases hc : closer? c = none
    · exact .inl ⟨.single c, Lexeme.read_single hc hq rest, rfl, rfl⟩
    · exact .inr ⟨c, rfl, h hc⟩

theorem unique (h : FirstUnit unit rest) (h' : FirstUnit unit' rest')
    (heq : unit ++ rest = unit' ++ rest') : unit = unit' ∧ rest = rest' := by
  have hunit : unit = unit' := by
    rcases h.cases_read with ⟨lexeme, hread, rfl, hu⟩ | ⟨opener, rfl, ho⟩ <;>
      rcases h'.cases_read with ⟨lexeme', hread', rfl, hu'⟩ | ⟨opener', rfl, ho'⟩
    · rw [heq, hread'] at hread
      rw [(List.cons.inj hread).1]
    · rw [heq, List.singleton_append, ho'.read] at hread
      rw [← (List.cons.inj hread).1] at hu
      cases hu
    · rw [← heq, List.singleton_append, ho.read] at hread'
      rw [← (List.cons.inj hread').1] at hu'
      cases hu'
    · rw [List.singleton_append, List.singleton_append] at heq
      rw [(List.cons.inj heq).1]
  subst hunit
  exact ⟨rfl, List.append_cancel_left heq⟩

end FirstUnit

theorem exists_firstUnit (c : Char) (t : Text) :
    ∃ unit rest, c :: t = unit ++ rest ∧ FirstUnit unit rest := by
  cases hc : closer? c with
  | some closer =>
    have hne := bracketing_closer?.ne hc
    cases hs : splitGroup? c closer 0 t with
    | some pair =>
      obtain ⟨s, rest⟩ := pair
      obtain ⟨_, _, rfl⟩ := eq_append_of_splitGroup? hs
      have henclosed := (enclosed_iff_firstEven hne).mp (enclosed_of_splitGroup? hne hs)
      exact ⟨c :: s, rest, rfl, .group hc rfl henclosed.2 rest⟩
    | none =>
      have hopen := leftOpen_of_splitGroup? hc hs
      refine ⟨[c], t, rfl, .single ?_ fun _ => hopen⟩
      cases hq : isQuote c with
      | false => rfl
      | true => simp [bracketing_closer?.of_isQuote hq] at hc
  | none =>
    by_cases hq : isQuote c = true
    · by_cases hmem : c ∈ t
      · obtain ⟨inside, rest, rfl, hi⟩ := List.eq_append_cons_of_mem hmem
        exact ⟨c :: inside ++ [c], rest, by simp, .quoted hq hi rest⟩
      · exact ⟨c :: t, [], by simp, .openQuote hq hmem⟩
    · exact ⟨[c], t, rfl, .single (by simpa using hq) fun h => absurd hc h⟩

namespace Units

variable {t : Text} {units front back : List Text}

theorem flatten_eq (h : Units t units) : units.flatten = t := by
  induction h with
  | nil => rfl
  | cons _ _ ih => rw [List.flatten_cons, ih]

theorem unique {others : List Text} (h : Units t units) (h' : Units t others) : units = others := by
  induction h generalizing others with
  | nil =>
    generalize ht : ([] : Text) = t at h'
    cases h' with
    | nil => rfl
    | cons hu _ => exact absurd (List.append_eq_nil_iff.mp ht.symm).1 hu.ne_nil
  | @cons unit rest units hu _ ih =>
    generalize ht : unit ++ rest = t at h'
    cases h' with
    | nil => exact absurd (List.append_eq_nil_iff.mp ht).1 hu.ne_nil
    | cons hu' hr' =>
      obtain ⟨rfl, rfl⟩ := hu.unique hu' ht
      rw [ih hr']

theorem read_append (h : Units t (front ++ back))
    (hopen : ∀ n, n < front.length → ¬ LeftOpen ((front ++ back).drop n).flatten) :
    ∃ lexemes, Lexeme.read closer? t = lexemes ++ Lexeme.read closer? back.flatten ∧
      lexemes.map Lexeme.text = front ∧ ∀ lexeme ∈ lexemes, lexeme.isUnclosed = false := by
  induction front generalizing t with
  | nil =>
    refine ⟨[], ?_, rfl, by simp⟩
    rw [← h.flatten_eq]
    rfl
  | cons unit front ih =>
    cases h with
    | @cons _ rest _ hu hr =>
      obtain ⟨lexemes, hread, htexts, hclosed⟩ := ih hr fun n hn =>
        hopen (n + 1) (Nat.succ_lt_succ hn)
      rcases hu.cases_read with ⟨lexeme, hfirst, rfl, hclosed'⟩ | ⟨opener, rfl, ho⟩
      · refine ⟨lexeme :: lexemes, ?_, by rw [List.map_cons, htexts], ?_⟩
        · rw [hfirst, hread, List.cons_append]
        · exact List.forall_mem_cons.mpr ⟨hclosed', hclosed⟩
      · have hfront := hopen 0 (Nat.succ_pos _)
        rw [List.drop_zero, List.cons_append, List.flatten_cons,
          show (front ++ back).flatten = rest from hr.flatten_eq] at hfront
        exact absurd ho hfront

theorem read_closed (h : Units t units) (hclosed : ∀ n, ¬ LeftOpen (units.drop n).flatten) :
    (Lexeme.read closer? t).map Lexeme.text = units ∧
      ∀ lexeme ∈ Lexeme.read closer? t, lexeme.isUnclosed = false := by
  rw [← List.append_nil units] at h
  obtain ⟨lexemes, hread, htexts, hlexemes⟩ := h.read_append fun n _ => by
    rw [List.append_nil]
    exact hclosed n
  rw [List.flatten_nil, Lexeme.read_nil, List.append_nil] at hread
  rw [hread]
  exact ⟨htexts, hlexemes⟩

theorem read_leftOpen {n : Nat} (h : Units t units) (hn : FirstAt LeftOpen units n) :
    ∃ lexemes opener rest, (units.drop n).flatten = opener :: rest ∧
      Lexeme.read closer? t = lexemes ++ [.unclosed opener (opener :: rest)] ∧
      lexemes.map Lexeme.text = units.take n ∧
      ∀ lexeme ∈ lexemes, lexeme.isUnclosed = false := by
  have hopen := hn.holds
  obtain ⟨opener, _, rest, _, hrest, _⟩ := hn.holds
  rw [hrest] at hopen
  rw [← List.take_append_drop n units] at h
  obtain ⟨lexemes, hread, htexts, hclosed⟩ := h.read_append fun k hk => by
    rw [List.take_append_drop]
    apply hn.earlier
    rw [List.length_take] at hk
    omega
  rw [hrest, hopen.read] at hread
  exact ⟨lexemes, opener, rest, hrest, hread, htexts, hclosed⟩

end Units

theorem exists_units (t : Text) : ∃ units, Units t units := by
  -- By the length of what is left, since a unit is at least one character.
  obtain ⟨n, hn⟩ : ∃ n, t.length = n := ⟨_, rfl⟩
  induction n using Nat.strong_induction_on generalizing t with
  | _ n ih =>
    cases t with
    | nil => exact ⟨[], .nil⟩
    | cons c t =>
      obtain ⟨unit, rest, heq, hu⟩ := exists_firstUnit c t
      have hlength := congrArg List.length heq
      have hpos := List.length_pos_iff.mpr hu.ne_nil
      rw [List.length_append] at hlength
      obtain ⟨units, hr⟩ := ih rest.length (by omega) rest rfl
      exact ⟨unit :: units, heq ▸ .cons hu hr⟩

/-- A text whose groups all close has its lexemes for units. -/
theorem units_of_closed {t : Text}
    (h : ∀ lexeme ∈ Lexeme.read closer? t, lexeme.isUnclosed = false) :
    Units t ((Lexeme.read closer? t).map Lexeme.text) := by
  obtain ⟨units, hu⟩ := exists_units t
  have hclosed : ∀ n, ¬ LeftOpen (units.drop n).flatten := by
    intro m hm
    obtain ⟨n, hn⟩ := exists_firstAt hm
    obtain ⟨lexemes, opener, rest, _, hread, _⟩ := hu.read_leftOpen hn
    have hlast := h (.unclosed opener (opener :: rest)) (by rw [hread]; simp)
    cases hlast
  rw [(hu.read_closed hclosed).1]
  exact hu

end Stencil
