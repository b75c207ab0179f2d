import Stencil.Proofs.Item.Exchange
import Stencil.Proofs.Segment.Append
import Stencil.Proofs.Segment.Spread

/-!
# One group in the place of another, in a body

A body is cut at the same commas when another group of the same kind, or another run
in the same quotes, stands in it. So it has as many segments as before, and their
items are the same but for the one that is written around the group.
-/

set_option autoImplicit false

namespace Stencil

open Lexeme (spell Closed Starts)

namespace Lexeme

theorem Closed.isUnclosed {lexeme : Lexeme} (h : Closed closer? lexeme) :
    lexeme.isUnclosed = false := by
  cases h <;> rfl

theorem Starts.exists_lexemes {x g g' y : Text} (ha : Alike g g') (hx : Starts x (g ++ y)) :
    ∃ before lexeme lexeme' after, lexeme.text = g ∧ lexeme'.text = g' ∧
      spell before = x ∧ spell after = y ∧ lexeme ≠ .single ',' ∧ lexeme' ≠ .single ',' ∧
      Closed closer? lexeme ∧ Closed closer? lexeme' ∧ (∀ l ∈ before, Closed closer? l) ∧
      read closer? (x ++ g ++ y) = before ++ lexeme :: after ∧
      read closer? (x ++ g' ++ y) = before ++ lexeme' :: after := by
  obtain ⟨lexeme, lexeme', rfl, rfl, hl, hl', hne, hne'⟩ := ha.exists_lexemes
  have hclosed := hx.closed (by simp [ha.trimmed.1])
  exact ⟨read closer? x, lexeme, lexeme', read closer? y, rfl, rfl, spell_read _ x, spell_read _ y,
    hne, hne', hl, hl', hclosed, hl.read_around hclosed y, hl'.read_around hclosed y⟩

end Lexeme

namespace Segment

theorem exists_first_piece (lexemes : List Lexeme) :
    ∃ piece rest, pieces lexemes = piece :: rest ∧ piece <+: lexemes := by
  induction lexemes with
  | nil => exact ⟨[], [], rfl, List.prefix_refl []⟩
  | cons lexeme lexemes ih =>
    obtain ⟨piece, rest, hp, hprefix⟩ := ih
    by_cases hc : lexeme = .single ','
    · subst hc
      exact ⟨[], pieces lexemes, pieces_comma lexemes, List.nil_prefix⟩
    · refine ⟨lexeme :: piece, rest, ?_, List.cons_prefix_cons.mpr ⟨rfl, hprefix⟩⟩
      rw [pieces_cons hc, hp, List.modifyHead_cons]

/-- A lexeme that is no comma stands in one piece, and the pieces around are the same for any. -/
theorem pieces_around (before after : List Lexeme) :
    ∃ left p q right, before = ended left ++ p ∧ q <+: after ∧ ∀ lexeme, lexeme ≠ .single ',' →
      pieces (before ++ lexeme :: after) = left ++ (p ++ lexeme :: q) :: right := by
  induction before with
  | nil =>
    obtain ⟨q, right, hpieces, hq⟩ := exists_first_piece after
    refine ⟨[], [], q, right, rfl, hq, fun lexeme hne => ?_⟩
    rw [List.nil_append, pieces_cons hne, hpieces, List.modifyHead_cons]
    rfl
  | cons first before ih =>
    obtain ⟨left, p, q, right, rfl, hq, hpieces⟩ := ih
    by_cases hc : first = .single ','
    · subst hc
      refine ⟨[] :: left, p, q, right, by rw [ended_cons]; rfl, hq, fun lexeme hne => ?_⟩
      rw [List.cons_append, pieces_comma, hpieces lexeme hne, List.cons_append]
    · cases left with
      | nil =>
        refine ⟨[], first :: p, q, right, rfl, hq, fun lexeme hne => ?_⟩
        rw [List.cons_append, pieces_cons hc, hpieces lexeme hne]
        rfl
      | cons piece left =>
        refine ⟨(first :: piece) :: left, p, q, right, by simp only [ended_cons, List.cons_append],
          hq, fun lexeme hne => ?_⟩
        rw [List.cons_append, pieces_cons hc, hpieces lexeme hne]
        rfl

theorem ofPiece_around {t : Text} (hne : t ≠ []) (ht : Trimmed t) (offset : Nat) (u v : Text) :
    ofPiece offset (u ++ t ++ v) = [⟨trimStart u ++ t ++ trimEnd v,
      ⟨offset + byteSize (leadingBlanks u), byteSize (trimStart u ++ t ++ trimEnd v)⟩⟩] := by
  have htrim := trim_around hne ht u v
  have hhead : ∀ c ∈ (trimStart u ++ (t ++ v)).head?, isBlank c = false := by
    rw [← trimStart_append_of_head u]
    · exact head?_trimStart _
    · rw [List.head?_append_of_ne_nil _ hne]
      exact ht.head
  have hlead := leadingBlanks_append (blanks_leadingBlanks u) hhead
  rw [← List.append_assoc, leadingBlanks_append_trimStart, ← List.append_assoc] at hlead
  have hentry : trim (u ++ t ++ v) ≠ [] := by
    rw [htrim]
    simp [hne]
  rw [ofPiece_entry hentry, htrim, hlead]

/-- The segments around a lexeme that is trimmed and no comma. -/
theorem ofPieces_around (before after : List Lexeme) :
    ∃ (p : List Lexeme) (x₁ v y₁ : Text) (first last : List Segment), p <:+ before ∧ spell before = x₁ ++ trimStart (spell p) ∧
      spell after = v ++ y₁ ∧ ∀ lexeme, lexeme ≠ .single ',' → lexeme.text ≠ [] →
      Trimmed lexeme.text → Trimmed (trimStart (spell p) ++ lexeme.text ++ v) ∧
      ofPieces 0 (pieces (before ++ lexeme :: after)) =
        first ++ ⟨trimStart (spell p) ++ lexeme.text ++ v,
          ⟨byteSize x₁, byteSize (trimStart (spell p) ++ lexeme.text ++ v)⟩⟩ ::
            last.map (shift (byteSize lexeme.text)) := by
  obtain ⟨left, p, q, right, rfl, ⟨r, rfl⟩, hpieces⟩ := pieces_around before after
  obtain ⟨w, _, hw⟩ := exists_trimEnd (spell q)
  refine ⟨p, spell (ended left) ++ leadingBlanks (spell p), trimEnd (spell q), w ++ spell r,
    ofPieces 0 left,
    ofPieces (byteSize (spell (ended left)) + byteSize (spell p) + byteSize (spell q) + 1) right,
    List.suffix_append _ _, ?_, ?_, fun lexeme hc hne ht => ⟨?_, ?_⟩⟩
  · rw [Lexeme.spell_append, List.append_assoc, leadingBlanks_append_trimStart]
  · rw [Lexeme.spell_append, ← List.append_assoc, ← hw]
  · rw [← trim_around hne ht]
    exact trimmed_trim _
  · have hspell : spell (p ++ lexeme :: q) = spell p ++ lexeme.text ++ spell q := by simp
    have hoffset : byteSize (spell (ended left)) + byteSize (spell p ++ lexeme.text ++ spell q) + 1 =
        byteSize (spell (ended left)) + byteSize (spell p) + byteSize (spell q) + 1 +
          byteSize lexeme.text := by
      simp only [byteSize_append]
      omega
    rw [hpieces lexeme hc, ofPieces_append, ofPieces, Nat.zero_add, hspell,
      ofPiece_around hne ht, hoffset, ofPieces_shift, byteSize_append (spell (ended left))]
    rfl

theorem exists_ofLexemes_iff {offset : Nat} {lexemes : List Lexeme} :
    (∃ segments, ofLexemes offset lexemes = .ok segments) ↔
      ∀ lexeme ∈ lexemes, lexeme.isUnclosed = false := by
  constructor
  · rintro ⟨segments, h⟩
    exact (ofLexemes_eq_ok h).1
  · exact fun h => ⟨_, ofLexemes_of_closed h offset⟩

theorem listSwapped_of_ofLexemes {before after : List Lexeme} {lexeme lexeme' : Lexeme}
    (ha : Alike lexeme.text lexeme'.text) (hc : lexeme ≠ .single ',') (hc' : lexeme' ≠ .single ',')
    (hl : Closed closer? lexeme) (hl' : Closed closer? lexeme')
    (hbefore : ∀ l ∈ before, Closed closer? l) {segments segments' : List Segment}
    (h : ofLexemes 0 (before ++ lexeme :: after) = .ok segments)
    (h' : ofLexemes 0 (before ++ lexeme' :: after) = .ok segments') :
    segments'.length = segments.length ∧
      Item.ListSwapped (spell before) lexeme.text lexeme'.text (spell after)
        (segments.map Item.ofSegment) (segments'.map Item.ofSegment) := by
  obtain ⟨p, x₁, v, y₁, first, last, hp, hx, hy, haround⟩ := ofPieces_around before after
  obtain ⟨ht, hsegments⟩ := haround lexeme hc ha.trimmed.1 ha.trimmed.2
  obtain ⟨_, hsegments'⟩ := haround lexeme' hc' ha.symm.trimmed.1 ha.symm.trimmed.2
  obtain rfl := (ofLexemes_eq_ok h).2.trans hsegments
  obtain rfl := (ofLexemes_eq_ok h').2.trans hsegments'
  have hclosed := Lexeme.closed_trimStart fun l hm => hbefore l (hp.subset hm)
  constructor
  · simp only [List.length_append, List.length_cons, List.length_map]
  · refine ⟨first.map Item.ofSegment, last.map Item.ofSegment, _, _, x₁, _, v, y₁, hx, hy,
      Item.span_ofSegment _, Item.span_ofSegment _,
      Item.swapped_of_read ha hl hl' hclosed ht _ _, ?_, ?_⟩
    · rw [List.map_append, List.map_cons, Item.map_ofSegment_shift]
    · rw [List.map_append, List.map_cons, Item.map_ofSegment_shift]

theorem writtenIn_of_split {t : Text} {segments : List Segment} (h : split t = .ok segments) :
    ((segments.map Item.ofSegment).map Item.span).Pairwise (fun s t => s.stop ≤ t.start) ∧
      ∀ item ∈ segments.map Item.ofSegment, Item.WrittenIn t item := by
  rw [split_eq_ofLexemes (byteSize_lt_of_split h)] at h
  have hspread := @spread_of_ofLexemes [] t [] segments h
  rw [List.nil_append, List.append_nil] at hspread
  constructor
  · have hspans : (segments.map Item.ofSegment).map Item.span = segments.map span := by
      simp only [List.map_map, Function.comp_def, Item.span_ofSegment]
    rw [hspans]
    exact hspread.ordered
  · intro item hm
    obtain ⟨segment, hs, rfl⟩ := List.mem_map.mp hm
    refine Item.writtenIn_ofSegment (entry_of_ofLexemes h segment hs) ?_
    obtain ⟨_, rfl⟩ := ofLexemes_eq_ok h
    obtain ⟨before, after, ht, hspan⟩ := exists_of_ofPieces hs
    rw [spell_pieces, Lexeme.spell_read] at ht
    rw [Nat.zero_add] at hspan
    exact Span.slice_eq_ok_iff.mpr ⟨before, after, ht, hspan⟩

/-- What stands in a group or between quotes has no part in how a body is cut. Of its items one
holds the other text where the group stood, and the rest are the same but for where they stand. -/
theorem split_exchange {x g g' y : Text} (ha : Alike g g') (hx : Starts x (g ++ y))
    (hs : byteSize (x ++ g ++ y) < offsetLimit) (hs' : byteSize (x ++ g' ++ y) < offsetLimit) :
    ((∃ segments, split (x ++ g ++ y) = .ok segments) ↔
      ∃ segments, split (x ++ g' ++ y) = .ok segments) ∧
    ∀ segments segments', split (x ++ g ++ y) = .ok segments →
      split (x ++ g' ++ y) = .ok segments' → segments'.length = segments.length ∧
        ∃ items items', segments.mapM Item.read = .ok items ∧
          segments'.mapM Item.read = .ok items' ∧ Item.ListSwapped x g g' y items items' ∧
          ∀ others, Item.ListSwapped x g g' y items others → others = items' := by
  obtain ⟨before, lexeme, lexeme', after, rfl, rfl, rfl, rfl, hc, hc', hl, hl', hbefore, hread,
    hread'⟩ := hx.exists_lexemes ha
  constructor
  · have hclosed := hl.isUnclosed
    have hclosed' := hl'.isUnclosed
    rw [split_eq_ofLexemes hs, split_eq_ofLexemes hs', exists_ofLexemes_iff, exists_ofLexemes_iff,
      hread, hread']
    simp only [List.forall_mem_append, List.forall_mem_cons, hclosed, hclosed']
  · intro segments segments' h h'
    obtain ⟨hordered, hwritten⟩ := writtenIn_of_split h
    rw [split_eq_ofLexemes hs] at h
    rw [split_eq_ofLexemes hs'] at h'
    have hitems := mapM_eq_ok (read_of_ofLexemes h)
    have hitems' := mapM_eq_ok (read_of_ofLexemes h')
    rw [hread] at h
    rw [hread'] at h'
    obtain ⟨hlength, hswapped⟩ := listSwapped_of_ofLexemes ha hc hc' hl hl' hbefore h h'
    exact ⟨hlength, _, _, hitems, hitems', hswapped,
      fun others ho => ho.unique ha hordered hwritten hswapped⟩

/-- The group stands at three more places, and no list with the swap at one of these is right. -/
theorem split_exchange_bracketed :
    Alike "(c)".toList "(d, é: \"[?)".toList ∧
    Starts "(c), (c): b ".toList ("(c)".toList ++ "? if (c), (c)".toList) ∧
    (∃ segments, split ("(c), (c): b ".toList ++ "(c)".toList ++ "? if (c), (c)".toList) =
        .ok segments ∧ segments.mapM Item.read = .ok
          [⟨"(c)".toList, none, none, ⟨0, 3⟩⟩,
            ⟨"b (c)".toList, some "(c)".toList, some "(c)".toList, ⟨5, 18⟩⟩,
            ⟨"(c)".toList, none, none, ⟨25, 3⟩⟩]) ∧
    ∀ others, Item.ListSwapped "(c), (c): b ".toList "(c)".toList "(d, é: \"[?)".toList
        "? if (c), (c)".toList
        [⟨"(c)".toList, none, none, ⟨0, 3⟩⟩,
          ⟨"b (c)".toList, some "(c)".toList, some "(c)".toList, ⟨5, 18⟩⟩,
          ⟨"(c)".toList, none, none, ⟨25, 3⟩⟩] others ↔
      others = [⟨"(c)".toList, none, none, ⟨0, 3⟩⟩,
        ⟨"b (d, é: \"[?)".toList, some "(c)".toList, some "(c)".toList, ⟨5, 27⟩⟩,
        ⟨"(c)".toList, none, none, ⟨34, 3⟩⟩] := by
  have hg : splitGroup? '(' ')' 0 "c)".toList = some ("c)".toList, []) := by decide +kernel
  have hg' : splitGroup? '(' ')' 0 "d, é: \"[?)".toList = some ("d, é: \"[?)".toList, []) := by
    decide +kernel
  have ha : Alike "(c)".toList "(d, é: \"[?)".toList :=
    .group rfl (enclosed_of_splitGroup? (by decide) hg) (enclosed_of_splitGroup? (by decide) hg')
  have hx : Starts "(c), (c): b ".toList ("(c)".toList ++ "? if (c), (c)".toList) :=
    ⟨_, _, (List.take_append_drop 8 _).symm, by decide +kernel⟩
  have hsplit : split ("(c), (c): b ".toList ++ "(c)".toList ++ "? if (c), (c)".toList) =
      .ok [⟨"(c)".toList, ⟨0, 3⟩⟩, ⟨"(c): b (c)? if (c)".toList, ⟨5, 18⟩⟩,
        ⟨"(c)".toList, ⟨25, 3⟩⟩] := by decide +kernel
  have hsplit' : split ("(c), (c): b ".toList ++ "(d, é: \"[?)".toList ++
      "? if (c), (c)".toList) =
      .ok [⟨"(c)".toList, ⟨0, 3⟩⟩, ⟨"(c): b (d, é: \"[?)? if (c)".toList, ⟨5, 27⟩⟩,
        ⟨"(c)".toList, ⟨34, 3⟩⟩] := by decide +kernel
  obtain ⟨_, items, items', hread, hread', hswapped, hunique⟩ :=
    (split_exchange ha hx (by decide) (by decide)).2 _ _ hsplit hsplit'
  have hitems : items = [⟨"(c)".toList, none, none, ⟨0, 3⟩⟩,
      ⟨"b (c)".toList, some "(c)".toList, some "(c)".toList, ⟨5, 18⟩⟩,
      ⟨"(c)".toList, none, none, ⟨25, 3⟩⟩] :=
    Except.ok.inj (hread.symm.trans (by decide +kernel))
  have hitems' : items' = [⟨"(c)".toList, none, none, ⟨0, 3⟩⟩,
      ⟨"b (d, é: \"[?)".toList, some "(c)".toList, some "(c)".toList, ⟨5, 27⟩⟩,
      ⟨"(c)".toList, none, none, ⟨34, 3⟩⟩] :=
    Except.ok.inj (hread'.symm.trans (by decide +kernel))
  subst hitems hitems'
  exact ⟨ha, hx, ⟨_, hsplit, hread⟩, fun others => ⟨hunique others, fun h => h ▸ hswapped⟩⟩

end Segment

end Stencil
