import Stencil.Proofs.Expression.Parsed
import Stencil.Proofs.Item.Units
import Stencil.Proofs.Token.Verbatim

/-!
# The ends of values

A value is trimmed before a question mark is taken off it, and not again. So no value has
a blank at its start, and it has one at its end exactly if the value as it is written ends
in a blank and a question mark.
-/

set_option autoImplicit false

namespace Stencil

namespace Item

open Segment (Entry)

def ValueWritten (text : Text) (item : Item) (written : Text) : Prop :=
  ∃ units start stop given, Units text units ∧ KeyOf units start item.key ∧
    ConditionOf units stop given ∧ written = trim ((units.take stop).drop start).flatten

def MarkedAfterBlank (written : Text) : Prop :=
  ∃ front b, written = front ++ [b, '?'] ∧ isBlank b = true

def EndsAsWritten (source : Text) (item : Item) : Prop :=
  ∃ text written, item.span.slice source = .ok text ∧ ValueWritten text item written ∧
    (∀ other, ValueWritten text item other → other = written) ∧
    (∀ c ∈ item.value.head?, isBlank c = false) ∧
    (Trimmed item.value ↔ ¬ MarkedAfterBlank written) ∧
    ∀ front b, written = front ++ [b, '?'] → isBlank b = true → item.value = front ++ [b]

theorem KeyOf.unique {units : List Text} {m n : Nat} {key key' : Option Text}
    (h : KeyOf units m key) (h' : KeyOf units n key') : m = n := by
  cases h with
  | keyed h =>
    cases h' with
    | keyed h' => rw [h.colon.unique h'.colon]
    | unkeyed h' => exact absurd h (h' _)
  | unkeyed h =>
    cases h' with
    | keyed h' => exact absurd h' (h _)
    | unkeyed => rfl

theorem ConditionOf.unique {units : List Text} {m n : Nat} {given given' : Option Text}
    (h : ConditionOf units m given) (h' : ConditionOf units n given') : m = n := by
  cases h with
  | marked h =>
    cases h' with
    | marked h' => exact h.unique h'
    | unmarked h' => exact absurd h (h' _)
  | unmarked h =>
    cases h' with
    | marked h' => exact absurd h' (h _)
    | unmarked => rfl

theorem ValueWritten.unique {text written other : Text} {item : Item}
    (h : ValueWritten text item written) (h' : ValueWritten text item other) :
    other = written := by
  obtain ⟨units, start, stop, _, hunits, hkey, hcondition, rfl⟩ := h
  obtain ⟨units', start', stop', _, hunits', hkey', hcondition', rfl⟩ := h'
  obtain rfl := hunits.unique hunits'
  rw [hkey.unique hkey', hcondition.unique hcondition']

namespace Settles

variable {item : Item} {written : Text} {given : Option Text}

theorem value_cases (h : Settles item written given) :
    written.getLast? ≠ some '?' ∧ item.value = written ∨ written = item.value ++ ['?'] := by
  have hvalue := h.value
  by_cases hq : written.getLast? = some '?'
  · obtain ⟨front, rfl⟩ := List.getLast?_eq_some_iff.mp hq
    rw [if_pos hq, List.dropLast_concat] at hvalue
    exact .inr (by rw [hvalue])
  · rw [if_neg hq] at hvalue
    exact .inl ⟨hq, hvalue⟩

theorem head_value (h : Settles item written given) (ht : Trimmed written) :
    ∀ c ∈ item.value.head?, isBlank c = false := by
  rcases h.value_cases with ⟨_, hvalue⟩ | hwritten
  · rw [hvalue]
    exact ht.head
  · rw [hwritten] at ht
    exact fun c hc => ht.head c (List.mem_head?_append_of_mem_head? hc)

theorem value_of_marked (h : Settles item written given) {front : Text} {b : Char}
    (hm : written = front ++ [b, '?']) : item.value = front ++ [b] := by
  have hlast : front ++ [b, '?'] = front ++ [b] ++ ['?'] := by simp
  rcases h.value_cases with ⟨hq, _⟩ | hwritten
  · rw [hm, hlast] at hq
    exact absurd List.getLast?_concat hq
  · rw [hwritten, hlast] at hm
    exact (List.append_inj' hm rfl).1

/-- Of what is written without outer blanks the value loses a question mark at most, so a blank
comes to its end only if it stood before that mark. -/
theorem trimmed_value_iff (h : Settles item written given) (ht : Trimmed written) :
    Trimmed item.value ↔ ¬ MarkedAfterBlank written := by
  constructor
  · rintro hvalue ⟨front, b, hm, hb⟩
    rw [h.value_of_marked hm] at hvalue
    have hlast := hvalue.last b (by simp)
    rw [hb] at hlast
    cases hlast
  · intro hm
    refine ⟨h.head_value ht, fun c hc => ?_⟩
    rcases h.value_cases with ⟨_, hvalue⟩ | hwritten
    · rw [hvalue] at hc
      exact ht.last c hc
    · obtain ⟨front, hfront⟩ := List.getLast?_eq_some_iff.mp hc
      by_contra hblank
      exact hm ⟨front, c, by rw [hwritten, hfront]; simp, by simpa using hblank⟩

end Settles

theorem endsAsWritten_ofSegment {source : Text} {segment : Segment} (h : Entry segment.text)
    (hslice : (ofSegment segment).span.slice source = .ok segment.text) :
    EndsAsWritten source (ofSegment segment) := by
  have hl := Lexeme.lexed_read bracketing_closer? segment.text
  have hlast : ∀ c ∈ (Lexeme.spell (Lexeme.read closer? segment.text)).getLast?,
      isBlank c = false := by
    rw [Lexeme.spell_read]
    exact h.trimmed.last
  obtain ⟨start, stop, given, hkey, hcondition, hsettles⟩ :=
    (laidOut_text segment.text).cutFrom hl hlast segment.span
  have hwritten : ValueWritten segment.text (ofSegment segment) _ :=
    ⟨_, start, stop, given, units_of_closed h.closed, hkey, hcondition, rfl⟩
  refine ⟨segment.text, _, hslice, hwritten, fun _ => hwritten.unique, ?_, ?_, ?_⟩
  · exact hsettles.head_value (trimmed_trim _)
  · exact hsettles.trimmed_value_iff (trimmed_trim _)
  · exact fun front b hm _ => hsettles.value_of_marked hm

end Item

namespace Expression

inductive ReadFrom (source : Text) : Expression → Prop
  | alone {e : Expression} (h : parse source = .ok e) : ReadFrom source e
  | within {tokens : List Token} {e : Expression} (h : tokenize source = .ok tokens)
      (he : .expression e ∈ tokens) : ReadFrom source e

theorem exists_segment_of_parse {text : Text} {e : Expression} {item : Item}
    (h : parse text = .ok e) (hi : item ∈ e.items) :
    ∃ segment : Segment, Segment.Entry segment.text ∧ item = Item.ofSegment segment ∧
      item.span.slice text = .ok segment.text := by
  obtain ⟨body, bodySpan, _, hslice, hparse⟩ := exists_window (byteSize_lt_of_parse h)
  rw [hparse] at h
  obtain ⟨segments, hsegments, _, rfl⟩ := ofBody_eq_ok_iff.mp h
  obtain ⟨segment, hs, rfl⟩ := List.mem_map.mp hi
  have hsplit := Segment.splitWithin_of_slice hslice
  rw [hsegments] at hsplit
  refine ⟨segment, Segment.entry_of_ofLexemes hsegments segment hs, rfl, ?_⟩
  rw [Item.span_ofSegment]
  exact Segment.slice_of_splitWithin hsplit segment hs

/-- No value has a blank at its start, and it has one at its end exactly where a question mark
that stood behind the blank was taken off it. -/
theorem value_ends_as_written {source : Text} {e : Expression} {item : Item}
    (h : ReadFrom source e) (hi : item ∈ e.items) : item.EndsAsWritten source := by
  cases h with
  | alone h =>
    obtain ⟨segment, hentry, rfl, hslice⟩ := exists_segment_of_parse h hi
    exact Item.endsAsWritten_ofSegment hentry hslice
  | within h he =>
    obtain ⟨segment, hentry, rfl, hslice⟩ := Token.exists_segment_of_mem h he hi
    exact Item.endsAsWritten_ofSegment hentry hslice

theorem value_ends_as_written_wide :
    (∃ e item, ReadFrom "é\x7bk: a\u3000? if b\x7d".toList e ∧ item ∈ e.items ∧
      item.value = "a\u3000".toList ∧ ¬ Trimmed item.value ∧
      item.EndsAsWritten "é\x7bk: a\u3000? if b\x7d".toList) ∧
    ∃ e item, ReadFrom " ? ".toList e ∧ item ∈ e.items ∧ item.value = [] ∧
      item.EndsAsWritten " ? ".toList := by
  have htokenize : tokenize "é\x7bk: a\u3000? if b\x7d".toList =
      .ok [.text ['é'] ⟨0, 2⟩, .expression
        ⟨[⟨"a\u3000".toList, some ['k'], some ['b'], ⟨3, 13⟩⟩], ⟨2, 15⟩,
          "\x7bk: a\u3000? if b\x7d".toList⟩] := by
    decide +kernel
  have hparse : parse " ? ".toList =
      .ok ⟨[⟨[], none, some existence, ⟨1, 1⟩⟩], ⟨0, 3⟩, " ? ".toList⟩ := by
    decide +kernel
  have hwithin := ReadFrom.within htokenize (List.mem_cons_of_mem _ List.mem_cons_self)
  have halone := ReadFrom.alone hparse
  have huntrimmed : ¬ Trimmed "a\u3000".toList := by
    intro h
    have hlast := h.last '\u3000' (by decide)
    revert hlast
    decide
  exact ⟨⟨_, _, hwithin, List.mem_cons_self, rfl, huntrimmed,
      value_ends_as_written hwithin List.mem_cons_self⟩,
    _, _, halone, List.mem_cons_self, rfl, value_ends_as_written halone List.mem_cons_self⟩

/-- The blank before a question mark stays on the value. -/
theorem blank_kept_before_question_mark :
    tokenize "\x7ba ?\x7d".toList = .ok [.expression
      ⟨[⟨"a ".toList, none, some existence, ⟨1, 3⟩⟩], ⟨0, 5⟩, "\x7ba ?\x7d".toList⟩] ∧
    ¬ ∀ (source : Text) (e : Expression), ReadFrom source e →
      ∀ item ∈ e.items, Trimmed item.value := by
  have htokenize : tokenize "\x7ba ?\x7d".toList = .ok [.expression
      ⟨[⟨"a ".toList, none, some existence, ⟨1, 3⟩⟩], ⟨0, 5⟩, "\x7ba ?\x7d".toList⟩] := by
    decide +kernel
  refine ⟨htokenize, fun hall => ?_⟩
  have htrimmed := hall _ _ (.within htokenize List.mem_cons_self) _ List.mem_cons_self
  have hlast := htrimmed.last ' ' (by decide)
  revert hlast
  decide

end Expression

end Stencil
