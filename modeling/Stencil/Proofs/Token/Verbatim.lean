import Stencil.Proofs.Item.Value
import Stencil.Proofs.Token.Render

/-!
# Items that stand for themselves

An item of a template has a key or a condition exactly if its value is not the text
under its span. So a template needs more than plain substitution exactly if some
item cannot be put in as it is written.
-/

set_option autoImplicit false

namespace Stencil

theorem mem_expressions {tokens : List Token} {e : Expression} :
    e ∈ expressions tokens ↔ .expression e ∈ tokens := by
  rw [expressions, List.mem_filterMap]
  constructor
  · rintro ⟨token, ht, he⟩
    cases token with
    | text => cases he
    | expression e' =>
      obtain rfl : e' = e := Option.some.inj he
      exact ht
  · exact fun h => ⟨.expression e, h, rfl⟩

theorem requiresExtended_eq_false_iff {tokens : List Token} :
    requiresExtended tokens = false ↔
      ∀ e ∈ expressions tokens, ∀ item ∈ e.items, item.isExtended = false := by
  simp [requiresExtended, Expression.isExtended]

namespace Token

theorem exists_segment_of_mem {template : Text} {tokens : List Token} {e : Expression}
    {item : Item} (h : tokenize template = .ok tokens) (he : expression e ∈ tokens)
    (hi : item ∈ e.items) : ∃ segment : Segment, Segment.Entry segment.text ∧
      item = Item.ofSegment segment ∧ item.span.slice template = .ok segment.text := by
  obtain ⟨position, inside, _, hgroup, hslices⟩ := exists_body_of_mem h he
  rw [Expression.ofGroup_braced] at hgroup
  obtain ⟨segments, hsegments, _, rfl⟩ := Expression.ofBody_eq_ok_iff.mp hgroup
  obtain ⟨segment, hsegment, rfl⟩ := List.mem_map.mp hi
  refine ⟨segment, Segment.entry_of_ofLexemes hsegments segment hsegment, rfl, ?_⟩
  obtain ⟨_, rfl⟩ := Segment.ofLexemes_eq_ok hsegments
  rw [Item.span_ofSegment]
  exact hslices segment hsegment

theorem isExtended_eq_false_iff_slice {template : Text} {tokens : List Token} {e : Expression}
    {item : Item} (h : tokenize template = .ok tokens) (he : expression e ∈ tokens)
    (hi : item ∈ e.items) :
    item.isExtended = false ↔ item.span.slice template = .ok item.value := by
  obtain ⟨segment, hentry, rfl, hslice⟩ := exists_segment_of_mem h he hi
  rw [hslice, Except.ok.injEq, Item.isExtended_eq_false_iff hentry, eq_comm]

/-- Plain items are those that can be put in as they are written, and a template whose items are
all plain is one that needs nothing more. -/
theorem verbatim_of_plain :
    (∀ (template : Text) (tokens : List Token) (e : Expression) (item : Item),
      tokenize template = .ok tokens → expression e ∈ tokens → item ∈ e.items →
      (item.isExtended = false ↔ item.span.slice template = .ok item.value)) ∧
    ∀ template : Text, (tokenize template).map requiresExtended = .ok false ↔
      ∃ tokens, tokenize template = .ok tokens ∧ ∀ e ∈ expressions tokens, ∀ item ∈ e.items,
        item.span.slice template = .ok item.value := by
  refine ⟨fun template tokens e item h he hi => isExtended_eq_false_iff_slice h he hi,
    fun template => ?_⟩
  cases h : tokenize template with
  | error failure => simp [Except.map]
  | ok tokens =>
    rw [Except.map, Except.ok.injEq, requiresExtended_eq_false_iff]
    constructor
    · intro hplain
      refine ⟨tokens, rfl, fun e he item hi => ?_⟩
      have hiff := isExtended_eq_false_iff_slice h (mem_expressions.mp he) hi
      exact hiff.mp (hplain e he item hi)
    · rintro ⟨_, hok, hslices⟩ e he item hi
      obtain rfl := Except.ok.inj hok
      have hiff := isExtended_eq_false_iff_slice h (mem_expressions.mp he) hi
      exact hiff.mpr (hslices e he item hi)

theorem verbatim_of_plain_question_mark :
    (tokenize "é\x7b\u3000(a?) , 'b if c \x7d".toList).map requiresExtended = .ok false ∧
    ∃ e item, tokenize "é\x7ba ?\x7d".toList = .ok [text ['é'] ⟨0, 2⟩, expression e] ∧
      item ∈ e.items ∧ item.isExtended = true ∧
      item.span.slice "é\x7ba ?\x7d".toList ≠ .ok item.value := by
  have hplain : tokenize "é\x7b\u3000(a?) , 'b if c \x7d".toList = .ok [text ['é'] ⟨0, 2⟩,
      expression ⟨[⟨"(a?)".toList, none, none, ⟨6, 4⟩⟩, ⟨"'b if c".toList, none, none, ⟨13, 7⟩⟩],
        ⟨2, 20⟩, "\x7b\u3000(a?) , 'b if c \x7d".toList⟩] := by
    decide +kernel
  have hmarked : tokenize "é\x7ba ?\x7d".toList = .ok [text ['é'] ⟨0, 2⟩,
      expression ⟨[⟨['a', ' '], none, some existence, ⟨3, 3⟩⟩], ⟨2, 5⟩, "\x7ba ?\x7d".toList⟩] := by
    decide +kernel
  refine ⟨(verbatim_of_plain.2 _).mpr ⟨_, hplain, ?_⟩, _, _, hmarked, List.mem_cons_self, rfl, ?_⟩
  · decide +kernel
  · intro hslice
    have hfalse := (verbatim_of_plain.1 _ _ _ _ hmarked
      (List.mem_cons_of_mem _ List.mem_cons_self) List.mem_cons_self).mpr hslice
    cases hfalse

end Token

end Stencil
