import Mathlib.Data.List.Forall2
import Stencil.Dump
import Stencil.Proofs.Expression.Render

/-!
# The lines of a dump

A dump has a row for each token and, below the row of an expression, one for each of its
items. What is quoted takes one line whatever it holds. Only the canonical form of an
expression is not quoted: each line feed in an item breaks the row of its expression once.
-/

set_option autoImplicit false

namespace Stencil

theorem lineFeed_not_mem_toDigits {base : Nat} (hb : 1 < base) (hb' : base ≤ 16) (n : Nat) :
    '\n' ∉ Nat.toDigits base n := by
  have hdigit : ∀ d < 16, '\n' ≠ Nat.digitChar d := by decide
  induction n using Nat.strong_induction_on with
  | _ n ih =>
    rw [Nat.toDigits_eq_if hb]
    split
    next hn => simp [hdigit n (by omega)]
    next hn =>
      have hrest := ih (n / base) (Nat.div_lt_self (by omega) hb)
      have hlast := hdigit (n % base) ((Nat.mod_lt n (by omega)).trans_le hb')
      simp [hrest, hlast]

theorem lineFeed_not_mem_quoteChar (c : Char) : '\n' ∉ quoteChar c := by
  have hnumber := @lineFeed_not_mem_toDigits 16 (by decide) (by decide) c.toNat
  by_cases hc : '\n' = c
  · rw [← hc]
    decide
  · rw [quoteChar]
    split_ifs <;> simp [hnumber, hc]

theorem lineFeed_not_mem_quoted (t : Text) : '\n' ∉ quoted t := by
  simp [quoted, lineFeed_not_mem_quoteChar]

theorem Span.lineFeed_not_mem_dump (span : Span) : '\n' ∉ span.dump := by
  simp [dump, decimal, lineFeed_not_mem_toDigits]

def Item.parts (item : Item) : Text :=
  item.key.getD [] ++ (item.value ++ item.condition.getD [])

theorem Item.count_render (item : Item) : item.render.count '\n' = item.parts.count '\n' := by
  have hkey : (writtenKey item.key).count '\n' = (item.key.getD []).count '\n' := by
    cases item.key with
    | none => rfl
    | some key => simp [writtenKey]
  have hcondition :
      (writtenCondition item.condition).count '\n' = (item.condition.getD []).count '\n' := by
    cases item.condition with
    | none => rfl
    | some condition =>
      by_cases hc : condition = existence
      · rw [writtenCondition, if_pos hc, hc, Option.getD_some]
      · simp [writtenCondition, hc]
  simp only [render_eq, parts, List.count_append, hkey, hcondition]

theorem count_intercalate {sep : Text} (hsep : sep.filter (· == '\n') = []) (texts : List Text) :
    (sep.intercalate texts).count '\n' = texts.flatten.count '\n' := by
  calc (sep.intercalate texts).count '\n'
      = ((sep.intercalate texts).filter (· == '\n')).length := List.countP_eq_length_filter
    _ = (texts.flatten.filter (· == '\n')).length := by
        rw [Segment.filter_intercalate hsep, List.filter_flatten, List.flatMap_def]
    _ = texts.flatten.count '\n' := List.countP_eq_length_filter.symm

theorem Expression.count_render (e : Expression) :
    e.render.count '\n' = (e.items.flatMap Item.parts).count '\n' := by
  rw [render, List.count_append, List.count_cons_of_ne (by decide), count_intercalate (by decide)]
  induction e.items with
  | nil => rfl
  | cons item items ih =>
    rw [List.map_cons, List.flatten_cons, List.flatMap_cons, List.count_append, List.count_append,
      item.count_render, ← ih, Nat.add_assoc]

def items (tokens : List Token) : List Item := (expressions tokens).flatMap Expression.items

theorem items_text (t : Text) (span : Span) (tokens : List Token) :
    items (.text t span :: tokens) = items tokens :=
  rfl

theorem items_expression (e : Expression) (tokens : List Token) :
    items (.expression e :: tokens) = e.items ++ items tokens :=
  rfl

namespace Dump

inductive Row where
  | token (token : Token)
  | item (item : Item)

def Row.label : Row → String
  | token (.text ..) => "text "
  | token (.expression e) => if e.isKeyedSet then "keyed " else "list "
  | item _ => "  value="

def Row.bare : Row → Text
  | token (.expression e) => e.items.flatMap Item.parts
  | _ => []

def rowsOf : Token → List Row
  | .text t span => [.token (.text t span)]
  | .expression e => .token (.expression e) :: e.items.map .item

def rows (tokens : List Token) : List Row := tokens.flatMap rowsOf

structure Row.Shown (row : Row) (shown : Text) : Prop where
  label : row.label.toList <+: shown
  lineFeeds : shown.count '\n' = row.bare.count '\n'

def stack (shown : List Text) : Text := shown.flatMap fun row => row ++ ['\n']

theorem Row.lineFeed_not_mem_label (row : Row) : '\n' ∉ row.label.toList := by
  cases row with
  | token token =>
    cases token with
    | text => exact (by decide : '\n' ∉ "text ".toList)
    | expression e =>
      rw [label]
      cases e.isKeyedSet <;> decide
  | item => exact (by decide : '\n' ∉ "  value=".toList)

theorem Row.shown_append {row : Row} {t : Text} (h : t.count '\n' = row.bare.count '\n') :
    row.Shown (row.label.toList ++ t) := by
  refine ⟨List.prefix_append row.label.toList t, ?_⟩
  rw [List.count_append, List.count_eq_zero.mpr row.lineFeed_not_mem_label, h, Nat.zero_add]

def part (name : String) : Option Text → Text
  | some t => name.toList ++ quoted t
  | none => []

theorem lineFeed_not_mem_part {name : String} (hname : '\n' ∉ name.toList) (t : Option Text) :
    '\n' ∉ part name t := by
  cases t with
  | none => exact List.not_mem_nil
  | some t => simp [part, hname, lineFeed_not_mem_quoted]

theorem dump_text_eq (t : Text) (span : Span) :
    (Token.text t span).dump = "text ".toList ++ span.dump ++ ' ' :: quoted t ++ ['\n'] :=
  rfl

theorem dump_expression_eq (e : Expression) :
    (Token.expression e).dump = (if e.isKeyedSet then "keyed " else "list ").toList
      ++ e.span.dump ++ ' ' :: e.render ++ '\n' :: e.items.flatMap Item.dump :=
  rfl

theorem dump_item_eq (item : Item) :
    item.dump = "  value=".toList ++ quoted item.value ++ part " key=" item.key
      ++ part " condition=" item.normalized ++ ['\n'] :=
  rfl

theorem exists_item (item : Item) :
    ∃ shown, item.dump = shown ++ ['\n'] ∧ (Row.item item).Shown shown := by
  have hkey := @lineFeed_not_mem_part " key=" (by decide) item.key
  have hcondition := @lineFeed_not_mem_part " condition=" (by decide) item.normalized
  refine ⟨(Row.item item).label.toList ++
    (quoted item.value ++ (part " key=" item.key ++ part " condition=" item.normalized)),
    ?_, Row.shown_append (List.count_eq_zero.mpr ?_)⟩
  · rw [dump_item_eq, Row.label]
    simp only [List.append_assoc]
  · simp [lineFeed_not_mem_quoted, hkey, hcondition]

theorem exists_items (items : List Item) :
    ∃ shown, items.flatMap Item.dump = stack shown ∧
      List.Forall₂ Row.Shown (items.map .item) shown := by
  induction items with
  | nil => exact ⟨[], rfl, .nil⟩
  | cons item items ih =>
    obtain ⟨row, hrow, hshown⟩ := exists_item item
    obtain ⟨shown, hitems, hall⟩ := ih
    refine ⟨row :: shown, ?_, .cons hshown hall⟩
    rw [List.flatMap_cons, hrow, hitems, stack, stack, List.flatMap_cons]

theorem exists_token (token : Token) :
    ∃ shown, token.dump = stack shown ∧ List.Forall₂ Row.Shown (rowsOf token) shown := by
  cases token with
  | text t span =>
    refine ⟨[(Row.token (.text t span)).label.toList ++ (span.dump ++ ' ' :: quoted t)], ?_,
      .cons (Row.shown_append (List.count_eq_zero.mpr ?_)) .nil⟩
    · rw [dump_text_eq, Row.label, stack, List.flatMap_singleton]
      simp only [List.append_assoc, List.cons_append]
    · simp [span.lineFeed_not_mem_dump, lineFeed_not_mem_quoted]
  | expression e =>
    obtain ⟨shown, hitems, hall⟩ := exists_items e.items
    refine ⟨((Row.token (.expression e)).label.toList ++ (e.span.dump ++ ' ' :: e.render)) :: shown,
      ?_, .cons (Row.shown_append ?_) hall⟩
    · rw [dump_expression_eq, hitems, Row.label, stack, stack, List.flatMap_cons]
      split <;> simp only [List.append_assoc, List.cons_append, List.nil_append]
    · rw [List.count_append, List.count_eq_zero.mpr e.span.lineFeed_not_mem_dump, Nat.zero_add,
        List.count_cons_of_ne (by decide), e.count_render, Row.bare]

/-- A dump is its rows one below the other. -/
theorem exists_shown (tokens : List Token) :
    ∃ shown, dump tokens = stack shown ∧ List.Forall₂ Row.Shown (rows tokens) shown := by
  induction tokens with
  | nil => exact ⟨[], rfl, .nil⟩
  | cons token tokens ih =>
    obtain ⟨first, hdump, hall⟩ := exists_token token
    obtain ⟨shown, hrest, hshown⟩ := ih
    refine ⟨first ++ shown, ?_, List.rel_append hall hshown⟩
    rw [dump, List.flatMap_cons, hdump, ← dump, hrest, stack, stack, stack, List.flatMap_append]

/-- There is a line feed after each row, and there are those that rows show as they are. -/
theorem count_stack {rows : List Row} {shown : List Text}
    (h : List.Forall₂ Row.Shown rows shown) :
    (stack shown).count '\n' = rows.length + (rows.flatMap Row.bare).count '\n' := by
  induction h with
  | nil => rfl
  | cons hrow _ ih =>
    rw [stack, List.flatMap_cons, ← stack, List.count_append, List.count_append, hrow.lineFeeds, ih,
      List.count_singleton_self, List.length_cons, List.flatMap_cons, List.count_append]
    omega

theorem length_rows (tokens : List Token) :
    (rows tokens).length = tokens.length + (items tokens).length := by
  induction tokens with
  | nil => rfl
  | cons token tokens ih =>
    rw [rows, List.flatMap_cons, ← rows, List.length_append, ih, List.length_cons]
    cases token with
    | text =>
      rw [items_text]
      simp [rowsOf]
      omega
    | expression e =>
      rw [items_expression]
      simp [rowsOf]
      omega

theorem bare_rows (tokens : List Token) :
    (rows tokens).flatMap Row.bare = (items tokens).flatMap Item.parts := by
  have hitems : ∀ items : List Item, (items.map Row.item).flatMap Row.bare = [] := by
    intro items
    rw [List.flatMap_map]
    exact List.flatMap_eq_nil_iff.mpr fun _ _ => rfl
  induction tokens with
  | nil => rfl
  | cons token tokens ih =>
    rw [rows, List.flatMap_cons, ← rows, List.flatMap_append, ih]
    cases token with
    | text => rfl
    | expression e =>
      rw [items_expression, List.flatMap_append, rowsOf, List.flatMap_cons, hitems,
        List.append_nil, Row.bare]

end Dump

/-- A dump has a row for each token and each item, in order. Its lines are as many, and one
more for each line feed in an item: only items without any are listed line by line. -/
theorem dump_lines (tokens : List Token) :
    (∃ shown, dump tokens = Dump.stack shown ∧
      List.Forall₂ Dump.Row.Shown (Dump.rows tokens) shown) ∧
    (dump tokens).count '\n' = tokens.length + (items tokens).length +
      ((items tokens).flatMap Item.parts).count '\n' ∧
    ((dump tokens).count '\n' = tokens.length + (items tokens).length ↔
      ∀ item ∈ items tokens, '\n' ∉ item.parts) := by
  obtain ⟨shown, hdump, hshown⟩ := Dump.exists_shown tokens
  have hcount : (dump tokens).count '\n' = tokens.length + (items tokens).length +
      ((items tokens).flatMap Item.parts).count '\n' := by
    rw [hdump, Dump.count_stack hshown, Dump.length_rows, Dump.bare_rows]
  refine ⟨⟨shown, hdump, hshown⟩, hcount, ?_⟩
  rw [hcount, Nat.add_eq_left, List.count_eq_zero]
  simp

/-- The canonical form of an expression shows a line feed as it is. -/
theorem dump_line_feed :
    ∃ tokens, tokenize "\x7ba\nb\x7d".toList = .ok tokens ∧
      dump tokens = "list 0..5 \x7ba\nb\x7d\n  value=\"a\\nb\"\n".toList ∧
      ¬ (dump tokens).count '\n' = tokens.length + (items tokens).length := by
  refine ⟨[.expression ⟨[⟨"a\nb".toList, none, none, ⟨1, 3⟩⟩], ⟨0, 5⟩,
    "\x7ba\nb\x7d".toList⟩], ?_⟩
  decide +kernel

end Stencil
