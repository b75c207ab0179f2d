import Stencil.Proofs.Expression.Homogeneous
import Stencil.Proofs.Expression.Render
import Stencil.Proofs.Item.Flat
import Stencil.Proofs.Segment.Exchange
import Stencil.Proofs.Token.Braced

/-!
# Lists of keys and values

A key and its value are written with a colon and a space between them, and a list of such
pairs with a comma between any two, in braces. A body is cut at its commas and trimmed
before the pieces are read, so the blanks of a blank value are gone when the colon is
looked at: no blank follows it, and what would be the key is the value. A list is read pair
by pair if all of its values are blank or none is, and it is refused for a mix otherwise.
-/

set_option autoImplicit false

namespace Stencil

open Lexeme (spell Quiet)
open Segment (pieces ofPieces)

theorem Item.contentOf_unmarked {key : Option Text} {value : Text}
    (hkey : ∀ k ∈ key, KeyPart k) (ht : Trimmed value) (hsits : Sits key.isSome value [])
    (hne : value ≠ []) (hlast : value.getLast? ≠ some '?') :
    contentOf (writtenKey key ++ value) = (value, key, none, none) := by
  have hraw := raw_unmarked hkey (by rwa [List.append_nil]) (.inl rfl) hsits
    (fun h => absurd h hne) ⟨0, byteSize (writtenKey key ++ value)⟩
  rw [List.map_nil, List.append_nil, List.append_nil] at hraw
  rw [contentOf, read_writtenKey hkey, Layout.item, hraw, settle_of_ne hlast]
  rfl

structure Solid (t : Text) : Prop where
  ne_nil : t ≠ []
  flat : Flat t
  blank : ∀ c ∈ t, isBlank c = false
  question : '?' ∉ t

structure Bare (t : Text) : Prop extends Solid t where
  colon : ':' ∉ t

namespace Solid

variable {t : Text}

theorem trimmed (h : Solid t) : Trimmed t where
  head c hc := h.blank c (List.mem_of_mem_head? hc)
  last c hc := h.blank c (List.mem_of_getLast? hc)

theorem marks_space (h : Solid t) : Item.marks (' ' :: t) = false := by
  cases hm : Item.marks (' ' :: t) with
  | false => rfl
  | true =>
    obtain ⟨v, b, rest, ht, _, hvne, hb⟩ := Item.marks_iff.mp hm
    obtain ⟨c, v, rfl⟩ := List.exists_cons_of_ne_nil hvne
    obtain ⟨_, rfl⟩ := List.cons.inj ht
    rw [h.blank b (by simp)] at hb
    cases hb

theorem contentOf_eq (h : Solid t) {key : Option Text} (hkey : ∀ k ∈ key, Item.KeyPart k) :
    Item.contentOf (Item.writtenKey key ++ t) = (t, key, none, none) := by
  have hquiet : Quiet (Item.stops key.isSome) (Lexeme.read closer? t) [] := by
    rw [h.flat.read_eq]
    exact Item.quiet_of_solid h.blank (by simp)
  have hspaced : Item.marks (' ' :: (t ++ [])) = false := by
    rw [List.append_nil]
    exact h.marks_space
  have hlast : t.getLast? ≠ some '?' := fun hq => h.question (List.mem_of_getLast? hq)
  exact Item.contentOf_unmarked hkey h.trimmed ⟨hquiet, fun _ _ => hspaced⟩ h.ne_nil hlast

end Solid

theorem Bare.keyPart {t : Text} (h : Bare t) : Item.KeyPart t where
  trimmed := h.trimmed
  whole := h.flat.whole
  inert := h.flat.inert
  quiet r := by
    rw [h.flat.read_eq]
    exact Item.quiet_of_solid h.blank fun hc => absurd hc h.colon

theorem Bare.solid_colon {t : Text} (h : Bare t) : Solid (t ++ [':']) where
  ne_nil := by simp
  flat := by
    refine flat_append_iff.mpr ⟨h.flat, fun c hc => ?_⟩
    rw [List.mem_singleton.mp hc]
    exact ⟨rfl, rfl, by decide, by decide⟩
  blank c hc := by
    rcases List.mem_append.mp hc with hc | hc
    · exact h.blank c hc
    · rw [List.mem_singleton.mp hc]
      decide
  question := by simpa using h.question

theorem bare_of_isLower {t : Text} (hne : t ≠ []) (h : ∀ c ∈ t, c.isLower = true) : Bare t := by
  have hletters : ∀ n < 26, closer? (Char.ofNat (97 + n)) = none ∧
      isQuote (Char.ofNat (97 + n)) = false ∧ isBlank (Char.ofNat (97 + n)) = false ∧
      Char.ofNat (97 + n) ∉ ['}', ',', ':', '?'] := by
    decide
  have hletter : ∀ c ∈ t, closer? c = none ∧ isQuote c = false ∧ isBlank c = false ∧
      c ∉ ['}', ',', ':', '?'] := by
    intro c hc
    obtain ⟨hlow, hhigh⟩ := Bool.and_eq_true_iff.mp (h c hc)
    have hlow : 97 ≤ c.toNat := of_decide_eq_true hlow
    have hhigh : c.toNat ≤ 122 := of_decide_eq_true hhigh
    have hn := hletters (c.toNat - 97) (by omega)
    rwa [Nat.add_sub_cancel' hlow, Char.ofNat_toNat] at hn
  have hmark : ∀ d ∈ ['}', ',', ':', '?'], d ∉ t := fun d hd hm => (hletter d hm).2.2.2 hd
  refine ⟨⟨hne, fun c hc => ?_, fun c hc => (hletter c hc).2.2.1, hmark '?' (by simp)⟩,
    hmark ':' (by simp)⟩
  obtain ⟨hopens, hquotes, _, _⟩ := hletter c hc
  refine ⟨hopens, hquotes, ?_, ?_⟩
  · rintro rfl
    exact hmark '}' (by simp) hc
  · rintro rfl
    exact hmark ',' (by simp) hc

structure Pair where
  key : Text
  value : Text
  bareKey : Bare key
  valueKind : Bare value ∨ Blanks value

namespace Pair

def write (pair : Pair) : Text := pair.key ++ ':' :: ' ' :: pair.value

def content (pair : Pair) : Text × Option Text × Option Text × Option Text :=
  if Blanks pair.value then (pair.key ++ [':'], none, none, none)
  else (pair.value, some pair.key, none, none)

theorem isSome_content (pair : Pair) :
    pair.content.2.1.isSome = !decide (Blanks pair.value) := by
  by_cases hb : Blanks pair.value <;> simp [content, hb]

def join (pairs : List Pair) : Text := [','].intercalate (pairs.map write)

theorem write_eq (pair : Pair) : pair.write = pair.key ++ [':'] ++ ' ' :: pair.value := by
  simp [write]

theorem flat_write (pair : Pair) : Flat pair.write := by
  rw [write_eq]
  refine flat_append_iff.mpr ⟨pair.bareKey.solid_colon.flat, ?_⟩
  refine List.forall_mem_cons.mpr ⟨ordinary_of_isBlank (by decide), ?_⟩
  rcases pair.valueKind with h | h
  · exact h.flat
  · exact h.flat

/-- Trimming takes all that follows the colon before a blank value, and nothing otherwise. -/
theorem contentOf_trim (pair : Pair) :
    trim pair.write ≠ [] ∧ Item.contentOf (trim pair.write) = pair.content := by
  have hsolid := pair.bareKey.solid_colon
  by_cases hb : Blanks pair.value
  · have hblanks : Blanks (' ' :: pair.value) := List.forall_mem_cons.mpr ⟨by decide, hb⟩
    have htrim : trim pair.write = pair.key ++ [':'] := by
      rw [write_eq]
      exact trim_append blanks_nil hsolid.trimmed hblanks
    rw [htrim, content, if_pos hb]
    exact ⟨hsolid.ne_nil, @Solid.contentOf_eq _ hsolid none (by simp)⟩
  · have hv : Bare pair.value := pair.valueKind.resolve_right hb
    have hwrite : pair.write = Item.writtenKey (some pair.key) ++ pair.value := by
      simp [write, Item.writtenKey]
    have htrimmed : Trimmed pair.write := by
      constructor
      · rw [write, List.head?_append_of_ne_nil _ pair.bareKey.ne_nil]
        exact pair.bareKey.trimmed.head
      · rw [hwrite, List.getLast?_append_of_ne_nil _ hv.ne_nil]
        exact hv.trimmed.last
    have hkey : ∀ k ∈ some pair.key, Item.KeyPart k := by
      intro k hk
      rw [← Option.mem_some_iff.mp hk]
      exact pair.bareKey.keyPart
    rw [trim_of_trimmed htrimmed, content, if_neg hb, hwrite]
    exact ⟨by simp [Item.writtenKey], hv.contentOf_eq hkey⟩

/-- The items of joined pairs are those of the pairs, one by one. -/
theorem exists_segments (pairs : List Pair) (offset : Nat) :
    ∃ segments, Segment.ofLexemes offset (Lexeme.read closer? (join pairs)) = .ok segments ∧
      (segments.map Item.ofSegment).map Item.content = pairs.map content := by
  by_cases hne : pairs = []
  · subst hne
    exact ⟨[], by rw [join, List.map_nil, List.intercalate_nil, Lexeme.read_nil]; rfl, rfl⟩
  have hflat : ∀ t ∈ pairs.map write, Segment.Whole t ∧ Segment.Inert t := by
    intro t ht
    obtain ⟨pair, _, rfl⟩ := List.mem_map.mp ht
    exact ⟨pair.flat_write.whole, pair.flat_write.inert⟩
  obtain ⟨hpieces, hwhole⟩ := Segment.pieces_join (by simpa using hne) hflat
  rw [← join] at hpieces hwhole
  refine ⟨ofPieces offset (pieces (Lexeme.read closer? (join pairs))),
    Segment.ofLexemes_of_closed (fun lexeme hl => (hwhole lexeme hl).isUnclosed) offset, ?_⟩
  have htexts : (ofPieces offset (pieces (Lexeme.read closer? (join pairs)))).map Segment.text =
      pairs.map (trim ∘ write) := by
    rw [Segment.texts_ofPieces, ← List.map_map, hpieces, List.map_map]
    refine List.filter_eq_self.mpr fun t ht => ?_
    obtain ⟨pair, _, rfl⟩ := List.mem_map.mp ht
    simpa using pair.contentOf_trim.1
  calc _ = ((ofPieces offset (pieces (Lexeme.read closer? (join pairs)))).map
        Segment.text).map Item.contentOf := by
        simp only [List.map_map, Function.comp_def, Item.content_ofSegment]
    _ = pairs.map content := by
        rw [htexts, List.map_map]
        exact List.map_congr_left fun pair _ => pair.contentOf_trim.2

theorem balanced_join (pairs : List Pair) : Balanced (join pairs) := by
  apply balanced_of_filter
  rw [join, Segment.filter_intercalate (by decide), List.flatMap_map, List.flatMap_eq_nil_iff]
  exact fun pair _ => pair.flat_write.filter_isBrace

def Mixed (pairs : List Pair) : Prop :=
  (∃ pair ∈ pairs, Blanks pair.value) ∧ ∃ pair ∈ pairs, ¬ Blanks pair.value

theorem exists_keyed_iff {pairs : List Pair} {items : List Item}
    (h : items.map Item.content = pairs.map content) :
    ((∃ item ∈ items, item.isKeyed = true) ↔ ∃ pair ∈ pairs, ¬ Blanks pair.value) ∧
      ((∃ item ∈ items, item.isKeyed = false) ↔ ∃ pair ∈ pairs, Blanks pair.value) := by
  have hkeyed : items.map Item.isKeyed = pairs.map fun pair => !decide (Blanks pair.value) := by
    calc items.map Item.isKeyed = (items.map Item.content).map fun c => c.2.1.isSome := by
          rw [List.map_map]
          rfl
      _ = pairs.map fun pair => !decide (Blanks pair.value) := by
          rw [h, List.map_map]
          exact List.map_congr_left fun pair _ => pair.isSome_content
  constructor
  · rw [← List.mem_map, hkeyed, List.mem_map]
    simp
  · rw [← List.mem_map, hkeyed, List.mem_map]
    simp

theorem isMixed_iff {pairs : List Pair} {items : List Item}
    (h : items.map Item.content = pairs.map content) :
    isMixed items = true ↔ Mixed pairs := by
  rw [isMixed_eq_true_iff, (exists_keyed_iff h).1, (exists_keyed_iff h).2, and_comm, Mixed]

end Pair

namespace Token

def braced (pairs : List Pair) : Text := '{' :: Pair.join pairs ++ ['}']

/-- A list of pairs is refused if some values are blank and some are not. Otherwise it is one
expression with an item for each pair, keyed if the values are words; with blank values, each
key and its colon are a value without a key. -/
theorem tokenize_pairs (pairs : List Pair) (hs : byteSize (braced pairs) < offsetLimit) :
    (Pair.Mixed pairs →
      tokenize (braced pairs) =
        refuse (.mixedItems (braced pairs)) ⟨0, byteSize (braced pairs)⟩) ∧
    (¬ Pair.Mixed pairs → ∃ e, tokenize (braced pairs) = .ok [.expression e] ∧
      e.items.map Item.content = pairs.map Pair.content ∧
      (e.isKeyedSet = true ↔ ∃ pair ∈ pairs, ¬ Blanks pair.value)) := by
  have henclosed : Enclosed '{' '}' (braced pairs) :=
    enclosed_braces_iff.mpr (Pair.balanced_join pairs)
  obtain ⟨segments, hsegments, hcontent⟩ := Pair.exists_segments pairs (0 + 1)
  have hgroup := Expression.ofGroup_braced 0 (Pair.join pairs)
  rw [← braced, Expression.ofBody, hsegments] at hgroup
  simp only [bind, Except.bind] at hgroup
  constructor
  · intro hmixed
    rw [if_pos ((Pair.isMixed_iff hcontent).mpr hmixed)] at hgroup
    exact tokenize_group_eq_refused henclosed hs hgroup
  · intro hmixed
    have hone : ¬ isMixed (segments.map Item.ofSegment) = true :=
      fun h => hmixed ((Pair.isMixed_iff hcontent).mp h)
    rw [if_neg hone] at hgroup
    refine ⟨_, tokenize_group henclosed hs hgroup, hcontent, ?_⟩
    rw [Expression.isKeyedSet, isKeyedSet_iff_exists (by simpa using hone)]
    exact (Pair.exists_keyed_iff hcontent).1

theorem tokenize_pairs_if :
    (∃ pairs e, braced pairs = "\x7bif: a,k: if\x7d".toList ∧ ¬ Pair.Mixed pairs ∧
      tokenize (braced pairs) = .ok [.expression e] ∧
      e.items.map Item.content = pairs.map Pair.content ∧ e.isKeyedSet = true) ∧
    ∃ pairs, braced pairs = "\x7bif: a,k: \u3000\x7d".toList ∧ Pair.Mixed pairs ∧
      tokenize (braced pairs) = refuse (.mixedItems (braced pairs)) ⟨0, 14⟩ := by
  have hif : Bare ['i', 'f'] := bare_of_isLower (by simp) (by simp)
  have ha : Bare ['a'] := bare_of_isLower (by simp) (by simp)
  have hk : Bare ['k'] := bare_of_isLower (by simp) (by simp)
  have hwide : Blanks ['\u3000'] := by decide
  have hnone : ¬ Blanks ['a'] ∧ ¬ Blanks ['i', 'f'] := by decide
  constructor
  · have hwords : ¬ Pair.Mixed [⟨_, _, hif, .inl ha⟩, ⟨_, _, hk, .inl hif⟩] := by
      simp [Pair.Mixed, hnone]
    have htext : braced [⟨_, _, hif, .inl ha⟩, ⟨_, _, hk, .inl hif⟩] =
        "\x7bif: a,k: if\x7d".toList := rfl
    obtain ⟨_, hok⟩ :=
      tokenize_pairs [⟨_, _, hif, .inl ha⟩, ⟨_, _, hk, .inl hif⟩] (by rw [htext]; decide)
    obtain ⟨e, he, hcontent, hkeyed⟩ := hok hwords
    exact ⟨_, e, htext, hwords, he, hcontent, hkeyed.mpr ⟨_, List.mem_cons_self, hnone.1⟩⟩
  · have hmixed : Pair.Mixed [⟨_, _, hif, .inl ha⟩, ⟨_, _, hk, .inr hwide⟩] := by
      simp [Pair.Mixed, hnone, hwide]
    have htext : braced [⟨_, _, hif, .inl ha⟩, ⟨_, _, hk, .inr hwide⟩] =
        "\x7bif: a,k: \u3000\x7d".toList := rfl
    obtain ⟨hrefused, _⟩ :=
      tokenize_pairs [⟨_, _, hif, .inl ha⟩, ⟨_, _, hk, .inr hwide⟩] (by rw [htext]; decide)
    exact ⟨_, htext, hmixed, hrefused hmixed⟩

/-- A blank value loses its key, and with it the list its kind. -/
theorem blank_value_loses_key :
    tokenize "\x7ba: b,c:  \x7d".toList =
      refuse (.mixedItems "\x7ba: b,c:  \x7d".toList) ⟨0, 11⟩ ∧
    ¬ ∀ pairs : List Pair, pairs ≠ [] → byteSize (braced pairs) < offsetLimit →
      ∃ e, tokenize (braced pairs) = .ok [.expression e] ∧
        e.items.map Item.key = pairs.map fun pair => some pair.key := by
  have hrefused : tokenize "\x7ba: b,c:  \x7d".toList =
      refuse (.mixedItems "\x7ba: b,c:  \x7d".toList) ⟨0, 11⟩ := by
    decide +kernel
  have ha : Bare ['a'] := bare_of_isLower (by simp) (by simp)
  have hb : Bare ['b'] := bare_of_isLower (by simp) (by simp)
  have hc : Bare ['c'] := bare_of_isLower (by simp) (by simp)
  have htext : braced [⟨_, _, ha, .inl hb⟩, ⟨_, _, hc, .inr blanks_space⟩] =
      "\x7ba: b,c:  \x7d".toList := rfl
  refine ⟨hrefused, fun hall => ?_⟩
  obtain ⟨e, he, _⟩ := hall [⟨_, _, ha, .inl hb⟩, ⟨_, _, hc, .inr blanks_space⟩] (by simp)
    (by rw [htext]; decide)
  rw [htext, hrefused] at he
  cases he

end Token

end Stencil
