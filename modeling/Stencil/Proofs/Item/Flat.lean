import Stencil.Proofs.Expression.Wrapped
import Stencil.Proofs.Item.Separable

/-!
# Texts without groups

A text without brackets, quotes and commas is flat: each of its characters is a lexeme of
its own, and no comma cuts it. Flat texts that are joined by commas are cut apart again at
these commas, and in a flat text without blanks no separator begins.
-/

set_option autoImplicit false

namespace Stencil

open Lexeme (spell Closed Quiet)
open Segment (Whole Inert pieces ofPieces)

structure Ordinary (c : Char) : Prop where
  opens : closer? c = none
  quotes : isQuote c = false
  closes : c ≠ '}'
  separates : c ≠ ','

def Flat (t : Text) : Prop := ∀ c ∈ t, Ordinary c

theorem ordinary_of_isBlank {c : Char} (h : isBlank c = true) : Ordinary c where
  opens := closer?_of_isBlank h
  quotes := isQuote_of_isBlank h
  closes := by
    rintro rfl
    exact absurd h (by decide)
  separates := by
    rintro rfl
    exact absurd h (by decide)

theorem Blanks.flat {t : Text} (h : Blanks t) : Flat t := fun c hc => ordinary_of_isBlank (h c hc)

theorem flat_append_iff {s t : Text} : Flat (s ++ t) ↔ Flat s ∧ Flat t := by
  simp only [Flat, List.mem_append, or_imp, forall_and]

namespace Flat

variable {t : Text}

theorem closed (h : Flat t) : ∀ lexeme ∈ t.map Lexeme.single, Closed closer? lexeme := by
  intro lexeme hl
  obtain ⟨c, hc, rfl⟩ := List.mem_map.mp hl
  exact .single (h c hc).opens (h c hc).quotes

theorem read_eq (h : Flat t) : Lexeme.read closer? t = t.map .single := by
  have hread := Lexeme.read_spell_append bracketing_closer? h.closed []
  rwa [Lexeme.spell_map_single, List.append_nil, Lexeme.read_nil, List.append_nil] at hread

theorem whole (h : Flat t) : Whole t := by
  rw [Whole, h.read_eq]
  exact h.closed

theorem inert (h : Flat t) : Inert t := by
  rw [Inert, h.read_eq]
  intro lexeme hl
  obtain ⟨c, hc, rfl⟩ := List.mem_map.mp hl
  exact ⟨rfl, by simpa using (h c hc).separates⟩

theorem filter_isBrace (h : Flat t) : t.filter Item.isBrace = [] := by
  refine List.filter_eq_nil_iff.mpr fun c hc hb => ?_
  rcases Bool.or_eq_true_iff.mp hb with hb | hb
  · have hopens := (h c hc).opens
    rw [eq_of_beq hb] at hopens
    cases hopens
  · exact (h c hc).closes (eq_of_beq hb)

end Flat

theorem balanced_of_filter {t : Text} (h : t.filter Item.isBrace = []) : Balanced t := by
  have hbrace : ∀ c ∈ t, Item.isBrace c = false := by
    simpa only [Bool.not_eq_true] using List.filter_eq_nil_iff.mp h
  have hnone : ∀ s : Text, s ⊆ t → s.count '{' = 0 ∧ s.count '}' = 0 := by
    intro s hs
    constructor
    · exact List.count_eq_zero.mpr fun hm => absurd (hbrace _ (hs hm)) (by decide)
    · exact List.count_eq_zero.mpr fun hm => absurd (hbrace _ (hs hm)) (by decide)
  refine ⟨?_, ?_⟩
  · obtain ⟨hopen, hclose⟩ := hnone t fun _ hc => hc
    rw [hopen, hclose]
  · rintro before after rfl
    rw [(hnone before (List.subset_append_left before after)).2]
    exact Nat.zero_le _

namespace Segment

/-- Texts that no comma cuts are cut apart again at the commas that join them. -/
theorem pieces_join {texts : List Text} (hne : texts ≠ []) (h : ∀ t ∈ texts, Whole t ∧ Inert t) :
    (pieces (Lexeme.read closer? ([','].intercalate texts))).map spell = texts ∧
      Whole ([','].intercalate texts) := by
  induction texts with
  | nil => exact absurd rfl hne
  | cons s rest ih =>
    obtain ⟨⟨hwhole, hinert⟩, hrest⟩ := List.forall_mem_cons.mp h
    have huncut : .single ',' ∉ Lexeme.read closer? s := fun hl => (hinert _ hl).2 rfl
    cases rest with
    | nil =>
      rw [List.intercalate_singleton, pieces, List.splitOn_eq_singleton huncut, List.map_singleton,
        Lexeme.spell_read]
      exact ⟨rfl, hwhole⟩
    | cons t rest =>
      obtain ⟨hpieces, hjoined⟩ := ih (by simp) hrest
      have hread := @read_intercalate [] blanks_nil s t rest hwhole
      rw [List.map_nil, List.nil_append] at hread
      constructor
      · rw [hread, pieces, List.splitOn_append_cons_self_of_not_mem huncut, List.map_cons,
          Lexeme.spell_read, ← pieces, hpieces]
      · rw [Whole, hread]
        intro lexeme hl
        rcases List.mem_append.mp hl with hl | hl
        · exact hwhole lexeme hl
        · rcases List.mem_cons.mp hl with rfl | hl
          · exact .single rfl rfl
          · exact hjoined lexeme hl

end Segment

namespace Item

theorem stops_cons_eq_false {keyed : Bool} {c : Char} {t : Text} (hc : isBlank c = false)
    (ht : c = ':' → ∀ b ∈ t.head?, isBlank b = false) : stops keyed (c :: t) = false := by
  have hmarks : marks (c :: t) = false := marks_eq_false (by simpa using hc)
  have hends : endsKey (c :: t) = false := by
    cases he : endsKey (c :: t) with
    | false => rfl
    | true =>
      obtain ⟨b, rest, heq, hb⟩ := endsKey_iff.mp he
      obtain ⟨rfl, rfl⟩ : c = ':' ∧ t = b :: rest := by simpa using heq
      rw [ht rfl b rfl] at hb
      cases hb
  rw [stops, hmarks, hends, Bool.and_false, Bool.or_false]

/-- No separator begins in text without blanks, unless a colon at its end comes before one. -/
theorem quiet_of_solid {keyed : Bool} {t r : Text} (ht : ∀ c ∈ t, isBlank c = false)
    (hr : ':' ∈ t → ∀ b ∈ r.head?, isBlank b = false) :
    Quiet (stops keyed) (t.map .single) r := by
  induction t with
  | nil => trivial
  | cons c t ih =>
    obtain ⟨hc, ht⟩ := List.forall_mem_cons.mp ht
    refine ⟨?_, ih ht fun hm => hr (List.mem_cons_of_mem c hm)⟩
    rw [← List.map_cons, Lexeme.spell_map_single, List.cons_append]
    refine stops_cons_eq_false hc fun hcolon b hb => ?_
    cases t with
    | nil => exact hr (by simp [hcolon]) b hb
    | cons d t =>
      obtain rfl : d = b := by simpa using hb
      exact ht d List.mem_cons_self

end Item

end Stencil
