import Stencil.Proofs.Item.Separable

/-!
# Items in their canonical form

An item whose parts can be told apart is read back from its canonical form: no key
is cut off from what was a value, and no marker is found but the one written there.
A condition that a question mark stands for is written as one, which is then read as
part of the value and taken off it again.
-/

set_option autoImplicit false

namespace Stencil

namespace Item

open Lexeme (spell Quiet Lexed Closed)
open Segment (Entry Inert Whole)

def writtenKey : Option Text → Text
  | some key => key ++ [':', ' ']
  | none => []

def writtenCondition : Option Text → Text
  | some condition => if condition = existence then existence else " if ".toList ++ condition
  | none => []

theorem render_eq (item : Item) :
    item.render = writtenKey item.key ++ (item.value ++ writtenCondition item.condition) := by
  rw [← List.append_assoc]
  rfl

def keyLexemes : Option Text → List Lexeme
  | some key => Lexeme.read closer? key ++ [.single ':', .single ' ']
  | none => []

theorem read_writtenKey {key : Option Text} (h : ∀ k ∈ key, KeyPart k) (t : Text) :
    Lexeme.read closer? (writtenKey key ++ t) = keyLexemes key ++ Lexeme.read closer? t := by
  cases key with
  | none => rfl
  | some key =>
    rw [writtenKey, List.append_assoc, (h key rfl).whole.read_append, keyLexemes]
    simp only [List.cons_append, List.nil_append, List.append_assoc]
    rw [Lexeme.read_single rfl rfl, Lexeme.read_single rfl rfl]

theorem read_if (condition : Text) :
    Lexeme.read closer? (" if ".toList ++ condition) =
      [.single ' ', .single 'i', .single 'f', .single ' '] ++ Lexeme.read closer? condition := by
  change Lexeme.read closer? (' ' :: 'i' :: 'f' :: ' ' :: condition) = _
  rw [Lexeme.read_single rfl rfl, Lexeme.read_single rfl rfl, Lexeme.read_single rfl rfl,
    Lexeme.read_single rfl rfl]
  rfl

theorem read_existence :
    Lexeme.read closer? (writtenCondition (some existence)) = existence.map .single := by
  rw [writtenCondition, if_pos rfl, existence, Lexeme.read_single rfl rfl, Lexeme.read_nil]
  rfl

theorem read_render {item : Item} (h : Separable item) :
    Lexeme.read closer? item.render = keyLexemes item.key ++ (Lexeme.read closer? item.value ++
      Lexeme.read closer? (writtenCondition item.condition)) := by
  rw [render_eq, read_writtenKey h.key]
  congr 1
  by_cases hc : item.condition = none
  · rw [hc, writtenCondition, List.append_nil, Lexeme.read_nil, List.append_nil]
  · exact (h.whole hc).read_append _

theorem Sits.ends {keyed : Bool} {value : Text} {shown marked : List Lexeme}
    (h : Sits keyed value (spell (shown ++ marked))) (he : Ends keyed shown marked) :
    Ends keyed (Lexeme.read closer? value ++ shown) marked := by
  refine ⟨Lexeme.quiet_append.mpr ⟨?_, he.quiet⟩, he.begins⟩
  rw [← Lexeme.spell_append]
  exact h.quiet

theorem Ends.space {value marked : List Lexeme} (h : Ends true value marked)
    (hm : marks (' ' :: (spell value ++ spell marked)) = false) :
    Ends true (.single ' ' :: value) marked :=
  ⟨⟨hm, h.quiet⟩, h.begins⟩

theorem layout_keyLexemes {key : Text} (hk : KeyPart key) {value marked : List Lexeme} {t : Text}
    (ht : spell (value ++ marked) = ' ' :: t) (h : Ends true value marked) :
    layout (Lexeme.read closer? key ++ .single ':' :: (value ++ marked)) =
      ⟨some (Lexeme.read closer? key), value, marked⟩ :=
  (LaidOut.keyed (hk.quiet _) ⟨' ', by rw [ht]; rfl, by decide⟩ h).layout_eq

theorem map_trim_read {key : Option Text} (h : ∀ k ∈ key, KeyPart k) :
    (key.map (Lexeme.read closer?)).map (fun key => trim (spell key)) = key := by
  cases key with
  | none => rfl
  | some key =>
    rw [Option.map_some, Option.map_some, Lexeme.spell_read, trim_of_trimmed (h key rfl).trimmed]

theorem keyLexemes_append (key : Text) (rest : List Lexeme) :
    keyLexemes (some key) ++ rest =
      Lexeme.read closer? key ++ .single ':' :: .single ' ' :: rest := by
  simp [keyLexemes]

/-- Behind a key, a value is laid out as it is by itself, unless a marker begins at
the space between them. -/
theorem raw_of_ends {key : Option Text} {value marked : List Lexeme}
    (hkey : ∀ k ∈ key, KeyPart k) (h : Ends key.isSome value marked) (ht : Trimmed (spell value))
    (hspace : key ≠ none → marks (' ' :: (spell value ++ spell marked)) = false) (span : Span) :
    (layout (keyLexemes key ++ (value ++ marked))).raw span =
      ⟨spell value, key, (Layout.mk none value marked).condition, span⟩ := by
  cases key with
  | none =>
    rw [keyLexemes, List.nil_append, (LaidOut.plain h).layout_eq, Layout.raw, Layout.valueText,
      trim_of_trimmed ht]
    rfl
  | some key =>
    have hkeys := map_trim_read hkey
    have hlayout := layout_keyLexemes (hkey key rfl)
      (by rw [Lexeme.spell_append, Lexeme.spell_cons]; rfl) (h.space (hspace (by simp)))
    have hvalue : trim (spell (.single ' ' :: value)) = spell value := by
      rw [Lexeme.spell_cons]
      exact (trim_blanks_append blanks_space _).trans (trim_of_trimmed ht)
    rw [List.cons_append] at hlayout
    rw [keyLexemes_append, hlayout, Layout.raw, Layout.valueText, hvalue]
    simp only [Item.mk.injEq]
    exact ⟨trivial, hkeys, rfl, trivial⟩

theorem raw_unmarked {key : Option Text} {value tail : Text} (hkey : ∀ k ∈ key, KeyPart k)
    (ht : Trimmed (value ++ tail)) (htail : tail = [] ∨ tail = existence)
    (hsits : Sits key.isSome value tail) (hne : value = [] → tail ≠ []) (span : Span) :
    (layout (keyLexemes key ++ (Lexeme.read closer? value ++ tail.map .single))).raw span =
      ⟨value ++ tail, key, none, span⟩ := by
  have htail' : ∀ keyed, Ends keyed (tail.map .single) [] := by
    intro keyed
    refine ⟨?_, by simp⟩
    rcases htail with rfl | rfl
    · trivial
    · cases keyed <;> exact ⟨by decide, trivial⟩
  have hends : Ends key.isSome (Lexeme.read closer? value ++ tail.map .single) [] := by
    refine Sits.ends ?_ (htail' _)
    rwa [List.append_nil, Lexeme.spell_map_single]
  have hspell : spell (Lexeme.read closer? value ++ tail.map .single) = value ++ tail := by
    rw [Lexeme.spell_append, Lexeme.spell_read, Lexeme.spell_map_single]
  have hspace : key ≠ none → marks (' ' :: (value ++ tail)) = false := by
    intro hk
    by_cases hv : value = []
    · rcases htail with rfl | rfl
      · exact absurd rfl (hne hv)
      · rw [hv]
        decide
    · exact hsits.spaced (Option.isSome_iff_ne_none.mpr hk) hv
  have hraw := raw_of_ends hkey hends (by rwa [hspell])
    (by rwa [hspell, Lexeme.spell_nil, List.append_nil]) span
  rw [List.append_nil, hspell] at hraw
  exact hraw

theorem raw_marked {key : Option Text} {value condition : Text} (hkey : ∀ k ∈ key, KeyPart k)
    (hv : Trimmed value) (hc : Trimmed condition) (hne : condition ≠ [])
    (hfilled : value = [] → key ≠ none)
    (hsits : Sits key.isSome value (" if ".toList ++ condition)) (span : Span) :
    (layout (keyLexemes key ++ (Lexeme.read closer? value ++
      Lexeme.read closer? (" if ".toList ++ condition)))).raw span =
        ⟨value, key, some condition, span⟩ := by
  have hmarks : marks (" if ".toList ++ condition) = true :=
    marks_iff.mpr ⟨[' '], ' ', condition, rfl, blanks_space, by simp, by decide⟩
  have hmarked := Lexeme.spell_read closer? (" if ".toList ++ condition)
  generalize Lexeme.read closer? (" if ".toList ++ condition) = marked at hmarked
  by_cases hempty : value = []
  · -- The marker takes the space that follows the colon.
    subst hempty
    obtain ⟨key, rfl⟩ := Option.ne_none_iff_exists'.mp (hfilled rfl)
    have hends : Ends true [] (.single ' ' :: marked) := by
      refine ⟨trivial, fun _ => ?_⟩
      rw [Lexeme.spell_cons, hmarked]
      exact marks_cons (by decide) hmarks
    have hblanks : Blanks [' ', ' '] := blanks_append_iff.mpr ⟨blanks_space, blanks_space⟩
    have hcondition := @Layout.condition_eq (.single ' ' :: marked) [' ', ' '] [' '] condition
      (by rw [Lexeme.spell_cons, hmarked]; rfl) hblanks (by simp) blanks_space (by simp) hc hne
    have hlayout := layout_keyLexemes (hkey key rfl)
      (by rw [List.nil_append, Lexeme.spell_cons]; rfl) hends
    have hkeys := map_trim_read hkey
    rw [List.nil_append] at hlayout
    rw [Lexeme.read_nil, List.nil_append, keyLexemes_append, hlayout, Layout.raw,
      Layout.valueText, hcondition]
    simp only [Item.mk.injEq]
    exact ⟨rfl, hkeys, trivial, trivial⟩
  · have hspell := Lexeme.spell_read closer? value
    have hends : Ends key.isSome (Lexeme.read closer? value) marked :=
      ⟨by rw [hmarked]; exact hsits.quiet, fun _ => by rw [hmarked]; exact hmarks⟩
    have hspace : key ≠ none → marks (' ' :: (value ++ (" if ".toList ++ condition))) = false :=
      fun hk => hsits.spaced (Option.isSome_iff_ne_none.mpr hk) hempty
    have hcondition := @Layout.condition_eq marked [' '] [' '] condition
      (by rw [hmarked]; rfl) blanks_space (by simp) blanks_space (by simp) hc hne
    rw [raw_of_ends hkey hends (by rwa [hspell]) (by rwa [hspell, hmarked]), hspell, hcondition]

def content (item : Item) : Text × Option Text × Option Text × Option Text :=
  (item.value, item.key, item.condition, item.normalized)

def Doubled (item : Item) : Prop := item.value.getLast? = some '?' ∧ item.condition ≠ none

theorem settle_of_ne {item : Item} (h : item.value.getLast? ≠ some '?') : item.settle = item := by
  rw [settle, stripQuestion?, if_neg h]

theorem settle_append_existence (value : Text) (key : Option Text) (span : Span) :
    (Item.mk (value ++ existence) key none span).settle = ⟨value, key, some existence, span⟩ := by
  have h : (value ++ existence).getLast? = some '?' := by simp [existence]
  rw [settle, stripQuestion?, if_pos h]
  simp [existence]

theorem render_settle {item : Item} (h : ¬ item.Doubled) : item.settle.render = item.render := by
  by_cases hq : item.value.getLast? = some '?'
  · obtain ⟨value, key, condition, span⟩ := item
    obtain ⟨init, rfl⟩ := List.getLast?_eq_some_iff.mp hq
    obtain rfl : condition = none := by
      by_cases hc : condition = none
      · exact hc
      · exact absurd ⟨hq, hc⟩ h
    rw [show init ++ ['?'] = init ++ existence from rfl, settle_append_existence]
    simp [render_eq, writtenCondition]
  · rw [settle_of_ne hq]

theorem content_settle (value : Text) (key condition : Option Text) (span span' : Span) :
    (Item.mk value key condition span).settle.content =
      (Item.mk value key condition span').settle.content := by
  rw [settle, settle]
  cases stripQuestion? value <;> rfl

/-- What is read from the canonical form is what was written. -/
theorem content_render {item : Item} (h : Separable item) (hd : ¬ item.Doubled) (span : Span) :
    ((layout (Lexeme.read closer? item.render)).item span).content = item.settle.content := by
  obtain ⟨value, key, condition, span'⟩ := item
  rw [Layout.item, read_render h]
  cases condition with
  | none =>
    have htrimmed : Trimmed (value ++ []) := by
      rw [List.append_nil]
      exact h.trimmed
    have hraw := raw_unmarked h.key htrimmed (.inl rfl) (h.sits [] (by simp))
      (fun hv => absurd rfl (h.filled hv).2) span
    rw [List.map_nil] at hraw
    rw [writtenCondition, Lexeme.read_nil, hraw, List.append_nil]
    exact content_settle value key none span span'
  | some condition =>
    have hne : value.getLast? ≠ some '?' := fun hq => hd ⟨hq, by simp⟩
    have hsettle := @settle_of_ne ⟨value, key, some condition, span'⟩ hne
    rw [hsettle]
    by_cases hc : condition = existence
    · subst hc
      have htrimmed : Trimmed (value ++ existence) := by
        refine ⟨?_, ?_⟩
        · cases value with
          | nil => simp [existence]; decide
          | cons c value => exact h.trimmed.head
        · simp [existence]
          decide
      have hraw := raw_unmarked h.key htrimmed (.inr rfl)
        (h.sits existence fun _ => ⟨by simp, by decide⟩) (fun _ => by decide) span
      rw [read_existence, hraw, settle_append_existence]
      rfl
    · have hcondition := h.condition condition rfl
      have hraw := raw_marked h.key h.trimmed hcondition.trimmed hcondition.ne_nil
        (fun hv => (h.filled hv).1) (h.sits (" if ".toList ++ condition) fun _ => ⟨by simp, by simp⟩) span
      rw [writtenCondition, if_neg hc, hraw, settle_of_ne hne]
      rfl

def Plain (lexeme : Lexeme) : Prop :=
  ∃ c, lexeme = .single c ∧ c ≠ ',' ∧ closer? c = none ∧ isQuote c = false

theorem mem_read_writtenCondition {condition : Option Text} {lexeme : Lexeme}
    (h : lexeme ∈ Lexeme.read closer? (writtenCondition condition)) :
    (∃ c ∈ condition, lexeme ∈ Lexeme.read closer? c) ∨ Plain lexeme := by
  cases condition with
  | none => simp [writtenCondition] at h
  | some condition =>
    by_cases hc : condition = existence
    · rw [hc, read_existence] at h
      obtain rfl : lexeme = .single '?' := by simpa [existence] using h
      exact .inr ⟨'?', rfl, by decide, rfl, rfl⟩
    · rw [writtenCondition, if_neg hc, read_if] at h
      rcases List.mem_append.mp h with h | h
      · simp only [List.mem_cons, List.not_mem_nil, or_false] at h
        rcases h with rfl | rfl | rfl | rfl <;> exact .inr ⟨_, rfl, by decide, rfl, rfl⟩
      · exact .inl ⟨condition, rfl, h⟩

theorem mem_read_render {item : Item} (hs : Separable item) {lexeme : Lexeme}
    (h : lexeme ∈ Lexeme.read closer? item.render) :
    (∃ key ∈ item.key, lexeme ∈ Lexeme.read closer? key) ∨
      lexeme ∈ Lexeme.read closer? item.value ∨
      (∃ c ∈ item.condition, lexeme ∈ Lexeme.read closer? c) ∨ Plain lexeme := by
  rw [read_render hs] at h
  rcases List.mem_append.mp h with h | h
  · cases hk : item.key with
    | none => simp [hk, keyLexemes] at h
    | some key =>
      rw [hk] at h
      rcases List.mem_append.mp h with h | h
      · exact .inl ⟨key, rfl, h⟩
      · simp only [List.mem_cons, List.not_mem_nil, or_false] at h
        rcases h with rfl | rfl <;> exact .inr (.inr (.inr ⟨_, rfl, by decide, rfl, rfl⟩))
  · rcases List.mem_append.mp h with h | h
    · exact .inr (.inl h)
    · exact .inr (.inr (mem_read_writtenCondition h))

theorem inert_render {item : Item} (h : Separable item) : Inert item.render := by
  intro lexeme hl
  rcases mem_read_render h hl with ⟨key, hk, hl⟩ | hl | ⟨c, hc, hl⟩ | ⟨c, rfl, hcomma, _, _⟩
  · exact (h.key key hk).inert lexeme hl
  · exact h.inert lexeme hl
  · exact (h.condition c hc).inert lexeme hl
  · exact ⟨rfl, by simpa using hcomma⟩

theorem whole_render {item : Item} (h : Separable item) (hv : Whole item.value)
    (hc : ∀ c ∈ item.condition, Whole c) : Whole item.render := by
  intro lexeme hl
  rcases mem_read_render h hl with ⟨key, hk, hl⟩ | hl | ⟨c, hmem, hl⟩ | ⟨c, rfl, _, hb, hq⟩
  · exact (h.key key hk).whole lexeme hl
  · exact hv lexeme hl
  · exact hc c hmem lexeme hl
  · exact .single hb hq

theorem last_writtenCondition {condition : Option Text} (h : ∀ c ∈ condition, Entry c)
    (hne : condition ≠ none) : writtenCondition condition ≠ [] ∧
      ∀ c ∈ (writtenCondition condition).getLast?, isBlank c = false := by
  cases condition with
  | none => exact absurd rfl hne
  | some condition =>
    have hentry := h condition rfl
    by_cases hc : condition = existence
    · rw [writtenCondition, if_pos hc]
      refine ⟨by simp [existence], ?_⟩
      intro c hc
      obtain rfl : '?' = c := by simpa [existence] using hc
      decide
    · rw [writtenCondition, if_neg hc]
      refine ⟨by simp, ?_⟩
      rw [List.getLast?_append_of_ne_nil _ hentry.ne_nil]
      exact hentry.trimmed.last

theorem head_render {item : Item} (h : Separable item) :
    item.render ≠ [] ∧ ∀ c ∈ item.render.head?, isBlank c = false := by
  rw [render_eq]
  cases hk : item.key with
  | none =>
    have hv : item.value ≠ [] := fun hv => (h.filled hv).1 hk
    rw [writtenKey, List.nil_append, List.head?_append_of_ne_nil _ hv]
    exact ⟨by simp [hv], h.trimmed.head⟩
  | some key =>
    have hkey := (h.key key hk).trimmed.head
    cases key with
    | nil =>
      refine ⟨by simp [writtenKey], ?_⟩
      intro c hc
      obtain rfl : ':' = c := by simpa [writtenKey] using hc
      decide
    | cons c key => exact ⟨by simp [writtenKey], hkey⟩

theorem last_render {item : Item} (h : Separable item) :
    ∀ c ∈ item.render.getLast?, isBlank c = false := by
  rw [render_eq, ← List.append_assoc]
  by_cases hc : item.condition = none
  · have hv : item.value ≠ [] := fun hv => (h.filled hv).2 hc
    rw [hc, writtenCondition, List.append_nil, List.getLast?_append_of_ne_nil _ hv]
    exact h.trimmed.last
  · obtain ⟨hne, hlast⟩ := last_writtenCondition h.condition hc
    rwa [List.getLast?_append_of_ne_nil _ hne]

/-- The canonical form of an item can be a segment. -/
theorem entry_render {item : Item} (h : Separable item) : Entry item.render where
  ne_nil := (head_render h).1
  trimmed := ⟨(head_render h).2, last_render h⟩
  inert := inert_render h

theorem filter_isBrace_render (item : Item) : item.render.filter isBrace =
    (item.key.getD [] ++ item.value ++ item.condition.getD []).filter isBrace := by
  have hkey : (writtenKey item.key).filter isBrace = (item.key.getD []).filter isBrace := by
    cases item.key with
    | none => rfl
    | some key => simp [writtenKey, isBrace]
  have hcondition : (writtenCondition item.condition).filter isBrace =
      (item.condition.getD []).filter isBrace := by
    cases item.condition with
    | none => rfl
    | some condition =>
      by_cases hc : condition = existence
      · simp [writtenCondition, hc]
      · simp [writtenCondition, hc, isBrace]
  rw [render_eq, List.filter_append, List.filter_append, hkey, hcondition, ← List.filter_append,
    ← List.filter_append, List.append_assoc]

end Item

end Stencil
