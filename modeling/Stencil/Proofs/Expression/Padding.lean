import Stencil.Proofs.Expression.Render
import Stencil.Proofs.Item.Value
import Stencil.Proofs.Segment.Padding
import Stencil.Proofs.Shift

/-!
# Blanks around an expression

Blanks around a list of items change nothing but the places of the items. They do
change a brace group: its braces are taken off only where it is the whole text, so a
group in blanks keeps them and is read as one item, which is the group itself.
-/

set_option autoImplicit false

namespace Stencil

open Lexeme (spell)

theorem getLast?_of_enclosed {text : Text} (h : Enclosed '{' '}' text) :
    text.getLast? = some '}' := by
  obtain ⟨inside, rfl⟩ := h.exists_inside (by decide)
  exact List.getLast?_concat

theorem trimmed_of_enclosed {text : Text} (h : Enclosed '{' '}' text) : Trimmed text := by
  constructor
  · intro c hc
    obtain rfl : '{' = c := by simpa [h.opens] using hc
    decide
  · intro c hc
    obtain rfl : '}' = c := by simpa [getLast?_of_enclosed h] using hc
    decide

theorem Lexeme.spell_group (opener : Char) (text : Text) : spell [group opener text] = text := by
  rw [spell_cons, spell_nil, List.append_nil]
  rfl

theorem Lexeme.read_of_enclosed {text : Text} (h : Enclosed '{' '}' text) :
    read closer? text = [group '{' text] :=
  (read_eq_iff bracketing_closer?).mpr ⟨.cons (.group rfl h) .nil, spell_group '{' text⟩

theorem entry_of_enclosed {text : Text} (h : Enclosed '{' '}' text) : Segment.Entry text := by
  refine ⟨List.ne_nil_of_mem (List.mem_of_mem_head? h.opens), trimmed_of_enclosed h, ?_⟩
  intro lexeme hl
  rw [Lexeme.read_of_enclosed h] at hl
  obtain rfl := List.mem_singleton.mp hl
  exact ⟨rfl, by simp⟩

theorem eq_nil_of_enclosed {u s w : Text} (hu : Blanks u) (hw : Blanks w)
    (h : Enclosed '{' '}' (u ++ s ++ w)) : u ++ w = [] := by
  have htrimmed := trimmed_of_enclosed h
  have hw' : w = [] := by
    apply eq_nil_of_blanks hw
    intro c hc
    exact htrimmed.last c (List.mem_getLast?_append_of_mem_getLast? hc)
  have hu' : u = [] := by
    cases u with
    | nil => rfl
    | cons b u =>
      have hblank := htrimmed.head b rfl
      rw [hu b List.mem_cons_self] at hblank
      cases hblank
  rw [hu', hw', List.append_nil]

namespace Item

theorem ofSegment_enclosed {text : Text} (h : Enclosed '{' '}' text) (span : Span) :
    ofSegment ⟨text, span⟩ = ⟨text, none, none, span⟩ := by
  have hspell := Lexeme.spell_group '{' text
  have hmarks : marks text = false := marks_eq_false (trimmed_of_enclosed h).head
  have hstops : stops false (spell [.group '{' text] ++ spell []) = false := by
    rw [hspell, Lexeme.spell_nil, List.append_nil, stops, hmarks]
    obtain ⟨inside, rfl⟩ := h.exists_inside (by decide)
    rfl
  have hlaid : LaidOut ([.group '{' text] ++ []) ⟨none, [.group '{' text], []⟩ :=
    .plain ⟨⟨hstops, trivial⟩, by simp⟩
  have hraw : (Layout.mk none [.group '{' text] []).raw span = ⟨text, none, none, span⟩ := by
    rw [Layout.raw, Layout.valueText, hspell, trim_of_trimmed (trimmed_of_enclosed h)]
    rfl
  rw [ofSegment, Lexeme.read_of_enclosed h, ← List.append_nil [Lexeme.group '{' text],
    hlaid.layout_eq, Layout.item, hraw]
  apply settle_of_ne
  simp [getLast?_of_enclosed h]

end Item

namespace Expression

def Agree : Outcome Expression → Outcome Expression → Prop
  | .ok e, .ok e' => e.items.map Item.content = e'.items.map Item.content
  | .error _, .error _ => True
  | _, _ => False

theorem agree_refl (outcome : Outcome Expression) : Agree outcome outcome := by
  cases outcome with
  | ok e => rfl
  | error failure => trivial

/-- Blanks around a body move its items and do nothing else. -/
theorem ofBody_padded {u w : Text} (hu : Blanks u) (hw : Blanks w) (offset : Nat)
    (body source : Text) (span : Span) :
    ofBody offset (u ++ body ++ w) source span = ofBody (offset + byteSize u) body source span := by
  rw [ofBody, ofBody, Segment.ofLexemes_padded hu hw]

theorem agree_ofBody (amount : Nat) (body source source' : Text) (span span' : Span) :
    Agree (ofBody (0 + amount) body source span) (ofBody 0 body source' span') := by
  rcases ofBody_cases 0 amount body source' source span' span with
    ⟨items, hbody, hmoved⟩ | ⟨_, _, hbody, hmoved⟩ | ⟨hbody, hmoved⟩
  · have hcontent : (items.map (Item.shift amount)).map Item.content = items.map Item.content := by
      rw [List.map_map]
      rfl
    rw [hbody, hmoved]
    exact hcontent
  · rw [hbody, hmoved]
    trivial
  · rw [hbody, hmoved]
    trivial

/-- A brace group in blanks is read as the one item that it is. -/
theorem parse_padded_enclosed {u s w : Text} (hu : Blanks u) (hw : Blanks w)
    (hs : byteSize (u ++ s ++ w) < offsetLimit) (h : Enclosed '{' '}' s) (hne : u ++ w ≠ []) :
    parse (u ++ s ++ w) = .ok ⟨[⟨s, none, none, ⟨byteSize u, byteSize s⟩⟩],
      ⟨0, byteSize (u ++ s ++ w)⟩, u ++ s ++ w⟩ := by
  have hsegments := Segment.ofLexemes_entry (entry_of_enclosed h) (0 + byteSize u)
  rw [Nat.zero_add] at hsegments
  rw [parse_eq_ofBody (fun he => hne (eq_nil_of_enclosed hu hw he)) hs, ofBody_padded hu hw,
    ofBody, Nat.zero_add, hsegments]
  simp only [bind, Except.bind, List.map_cons, List.map_nil, Item.ofSegment_enclosed h]
  rfl

theorem length_value_le_of_ofBody {offset : Nat} {body source : Text} {span : Span}
    {e : Expression} (h : ofBody offset body source span = .ok e) :
    ∀ item ∈ e.items, item.value.length ≤ body.length := by
  obtain ⟨segments, hsegments, _, rfl⟩ := ofBody_eq_ok_iff.mp h
  obtain ⟨_, rfl⟩ := Segment.ofLexemes_eq_ok hsegments
  intro item hi
  obtain ⟨segment, hs, rfl⟩ := List.mem_map.mp hi
  obtain ⟨before, after, hbody, _⟩ := Segment.exists_of_ofPieces hs
  rw [Segment.spell_pieces, Lexeme.spell_read] at hbody
  have hlength := congrArg List.length hbody
  simp only [List.length_append] at hlength
  have hle := Item.length_value_le segment
  omega

theorem not_agree_enclosed {s : Text} (h : Enclosed '{' '}' s) (hs : byteSize s < offsetLimit)
    (span span' : Span) (source : Text) :
    ¬ Agree (.ok ⟨[⟨s, none, none, span⟩], span', source⟩) (parse s) := by
  intro hagree
  obtain ⟨inside, rfl⟩ := h.exists_inside (by decide)
  rw [parse_eq_ofGroup h hs, ofGroup_braced] at hagree
  cases hbody : ofBody (0 + 1) inside ('{' :: inside ++ ['}'])
      ⟨0, byteSize ('{' :: inside ++ ['}'])⟩ with
  | error failure =>
    rw [hbody] at hagree
    exact hagree
  | ok e =>
    rw [hbody] at hagree
    have hmem : Item.content ⟨'{' :: inside ++ ['}'], none, none, span⟩ ∈
        e.items.map Item.content := by
      rw [← show _ = e.items.map Item.content from hagree]
      exact List.mem_cons_self
    obtain ⟨item, hi, hcontent⟩ := List.mem_map.mp hmem
    have hvalue : item.value = '{' :: inside ++ ['}'] := congrArg Prod.fst hcontent
    have hle := length_value_le_of_ofBody hbody item hi
    rw [hvalue, List.length_append, List.length_cons] at hle
    omega

/-- Blanks around a text keep what it says unless it is a brace group: that one keeps its braces
and is read as one item, where by itself it is not. -/
theorem parse_padded {u s w : Text} (hu : Blanks u) (hw : Blanks w)
    (hs : byteSize (u ++ s ++ w) < offsetLimit) :
    (Agree (parse (u ++ s ++ w)) (parse s) ↔ (Enclosed '{' '}' s → u ++ w = [])) ∧
      (Enclosed '{' '}' s → u ++ w ≠ [] →
        parse (u ++ s ++ w) = .ok ⟨[⟨s, none, none, ⟨byteSize u, byteSize s⟩⟩],
          ⟨0, byteSize (u ++ s ++ w)⟩, u ++ s ++ w⟩) := by
  have hs' : byteSize s < offsetLimit := by
    rw [byteSize_append, byteSize_append] at hs
    omega
  refine ⟨⟨fun hagree h => ?_, fun h => ?_⟩, parse_padded_enclosed hu hw hs⟩
  · by_contra hne
    rw [parse_padded_enclosed hu hw hs h hne] at hagree
    exact not_agree_enclosed h hs' _ _ _ hagree
  · by_cases henclosed : Enclosed '{' '}' s
    · obtain ⟨rfl, rfl⟩ := List.append_eq_nil_iff.mp (h henclosed)
      rw [List.nil_append, List.append_nil]
      exact agree_refl (parse s)
    · have hpadded : ¬ Enclosed '{' '}' (u ++ s ++ w) := by
        intro he
        obtain ⟨rfl, rfl⟩ := List.append_eq_nil_iff.mp (eq_nil_of_enclosed hu hw he)
        rw [List.nil_append, List.append_nil] at he
        exact henclosed he
      rw [parse_eq_ofBody henclosed hs', parse_eq_ofBody hpadded hs, ofBody_padded hu hw]
      exact agree_ofBody (byteSize u) s _ _ _ _

theorem parse_padded_open_quote :
    Agree (parse "\u3000 k: 'a, \x7bb\n".toList) (parse "k: 'a, \x7bb".toList) ∧
    (Enclosed '{' '}' "\x7ba: b, c\x7d".toList ∧
      parse "\t\x7ba: b, c\x7d\n".toList = .ok
        ⟨[⟨"\x7ba: b, c\x7d".toList, none, none, ⟨1, 9⟩⟩], ⟨0, 11⟩,
          "\t\x7ba: b, c\x7d\n".toList⟩) := by
  have hwide : Blanks "\u3000 ".toList := by decide
  have htab : Blanks ['\t'] := by decide
  have hnewline : Blanks ['\n'] := by decide
  have hquote : ¬ Enclosed '{' '}' "k: 'a, \x7bb".toList := by
    intro h
    exact absurd (isBraced_iff.mpr h) (by decide +kernel)
  have hgroup : Enclosed '{' '}' "\x7ba: b, c\x7d".toList := isBraced_iff.mp (by decide +kernel)
  have hbare := (@parse_padded _ "k: 'a, \x7bb".toList _ hwide hnewline (by decide)).1
  have hbraced := (@parse_padded _ "\x7ba: b, c\x7d".toList _ htab hnewline (by decide)).2
  exact ⟨hbare.mpr fun h => absurd h hquote, hgroup, hbraced hgroup (by decide)⟩

/-- The line end after an expression in braces keeps the braces on. -/
theorem braces_kept_before_newline :
    parse "\x7ba, b\x7d".toList = .ok
      ⟨[⟨['a'], none, none, ⟨1, 1⟩⟩, ⟨['b'], none, none, ⟨4, 1⟩⟩], ⟨0, 6⟩, "\x7ba, b\x7d".toList⟩ ∧
    parse "\x7ba, b\x7d\n".toList = .ok
      ⟨[⟨"\x7ba, b\x7d".toList, none, none, ⟨0, 6⟩⟩], ⟨0, 7⟩, "\x7ba, b\x7d\n".toList⟩ ∧
    ¬ ∀ u s w : Text, Blanks u → Blanks w → byteSize (u ++ s ++ w) < offsetLimit →
      Agree (parse (u ++ s ++ w)) (parse s) := by
  have hplain : parse "\x7ba, b\x7d".toList = .ok
      ⟨[⟨['a'], none, none, ⟨1, 1⟩⟩, ⟨['b'], none, none, ⟨4, 1⟩⟩], ⟨0, 6⟩,
        "\x7ba, b\x7d".toList⟩ := by
    decide +kernel
  have hpadded : parse "\x7ba, b\x7d\n".toList = .ok
      ⟨[⟨"\x7ba, b\x7d".toList, none, none, ⟨0, 6⟩⟩], ⟨0, 7⟩, "\x7ba, b\x7d\n".toList⟩ := by
    decide +kernel
  refine ⟨hplain, hpadded, fun hall => ?_⟩
  have hnewline : Blanks ['\n'] := by decide
  have hagree := hall [] "\x7ba, b\x7d".toList ['\n'] blanks_nil hnewline (by decide)
  rw [List.nil_append, show "\x7ba, b\x7d".toList ++ ['\n'] = "\x7ba, b\x7d\n".toList by decide,
    hpadded, hplain] at hagree
  have hitems : List.map Item.content _ = List.map Item.content _ := hagree
  exact absurd (congrArg List.length hitems) (by decide)

end Expression

end Stencil
