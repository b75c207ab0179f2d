import Stencil.Proofs.Shift
import Stencil.Proofs.Token

/-!
# The grammar of templates

A template is a sequence of chunks: brace groups that are expressions, and runs of
literal text between them. Text put together so has exactly these chunks as its
tokens, whatever quotes stand in the groups and whatever braces in the quotes.
-/

set_option autoImplicit false

namespace Stencil

inductive Literal : Text → Prop
  | nil : Literal []
  | char {c : Char} {t : Text} (hq : isQuote c = false) (hb : c ≠ '{') (h : Literal t) :
      Literal (c :: t)
  | run {quote : Char} {inside t : Text} (hq : isQuote quote = true) (hi : quote ∉ inside)
      (h : Literal t) : Literal (quote :: inside ++ [quote] ++ t)

inductive OpenLiteral : Text → Prop
  | intro {t inside : Text} {quote : Char} (h : Literal t) (hq : isQuote quote = true)
      (hi : quote ∉ inside) : OpenLiteral (t ++ quote :: inside)

inductive Chunk where
  | literal (text : Text)
  | group (text : Text)

namespace Chunk

def text : Chunk → Text
  | literal t => t
  | group t => t

def isLiteral : Chunk → Bool
  | literal _ => true
  | group _ => false

/-- Chunks that are what they say, no two literal ones next to each other. Only the
last may leave a quoted run open. -/
def Sequence : List Chunk → Prop
  | [] => True
  | literal t :: rest => t ≠ [] ∧ (Literal t ∨ rest = [] ∧ OpenLiteral t) ∧
      (∀ next ∈ rest.head?, next.isLiteral = false) ∧ Sequence rest
  | group t :: rest => Enclosed '{' '}' t ∧ (∃ e, Expression.parse t = .ok e) ∧ Sequence rest

end Chunk

def Token.chunk : Token → Chunk
  | .text t _ => .literal t
  | .expression e => .group e.source

namespace Lexeme

theorem closed_of_literal {t : Text} (h : Literal t) :
    ∀ lexeme ∈ read braceCloser? t, lexeme.isLiteral = true ∧ Closed braceCloser? lexeme := by
  induction h with
  | nil => simp
  | @char c t hq hb _ ih =>
    have hn := braceCloser?_eq_none_iff.mpr hb
    rw [read_single hn hq]
    exact List.forall_mem_cons.mpr ⟨⟨rfl, .single hn hq⟩, ih⟩
  | @run quote inside t hq hi _ ih =>
    have hc : Closed braceCloser? (quoted (quote :: inside ++ [quote])) :=
      .quoted (bracketing_braceCloser?.of_isQuote hq) hq hi
    have hr := hc.read_append bracketing_braceCloser? t
    rw [text] at hr
    rw [hr]
    exact List.forall_mem_cons.mpr ⟨⟨rfl, hc⟩, ih⟩

theorem isLiteral_of_openLiteral {t : Text} (h : OpenLiteral t) :
    ∀ lexeme ∈ read braceCloser? t, lexeme.isLiteral = true := by
  cases h with
  | @intro t inside quote h hq hi =>
    have ht := closed_of_literal h
    have hr := read_append bracketing_braceCloser? (fun l hl => (ht l hl).2) (quote :: inside)
    have hlast : Trailing braceCloser? (quoted (quote :: inside)) :=
      .quoted (bracketing_braceCloser?.of_isQuote hq) hq hi
    have hread := hlast.read
    rw [text] at hread
    rw [hread] at hr
    rw [hr]
    intro lexeme hl
    rcases List.mem_append.mp hl with hl | hl
    · exact (ht lexeme hl).1
    · rw [List.mem_singleton.mp hl]
      rfl

theorem read_literal_append {t rest : Text} (h : Literal t ∨ rest = [] ∧ OpenLiteral t) :
    read braceCloser? (t ++ rest) = read braceCloser? t ++ read braceCloser? rest ∧
      ∀ lexeme ∈ read braceCloser? t, lexeme.isLiteral = true := by
  rcases h with h | ⟨rfl, h⟩
  · have ht := closed_of_literal h
    exact ⟨read_append bracketing_braceCloser? (fun l hl => (ht l hl).2) rest,
      fun l hl => (ht l hl).1⟩
  · exact ⟨by simp, isLiteral_of_openLiteral h⟩

end Lexeme

namespace Token

open Lexeme (spell)

theorem ofLexemes_append {lexemes : List Lexeme} (h : ∀ lexeme ∈ lexemes, lexeme.isLiteral = true)
    (offset : Nat) (run rest : List Lexeme) :
    ofLexemes offset run (lexemes ++ rest) = ofLexemes offset (run ++ lexemes) rest := by
  induction lexemes generalizing run with
  | nil => rw [List.append_nil, List.nil_append]
  | cons lexeme lexemes ih =>
    rw [List.cons_append, ofLexemes_literal (h lexeme (by simp)),
      ih (fun l hl => h l (by simp [hl])), List.append_assoc, List.singleton_append]

theorem map_chunk_literal {run : Text} (h : run ≠ []) (offset : Nat) :
    (literal offset run).map chunk = [.literal run] := by
  simp [literal, h, chunk]

theorem exists_of_parse {group : Text} (h : Enclosed '{' '}' group)
    (hs : byteSize group < offsetLimit) (hp : ∃ e, Expression.parse group = .ok e) (offset : Nat) :
    ∃ e, Expression.ofGroup offset group = .ok e ∧ e.source = group := by
  obtain ⟨e, he⟩ := hp
  rw [Expression.parse_eq_ofGroup h hs] at he
  have hshift := Expression.ofGroup_shift 0 offset group
  rw [he, Nat.zero_add] at hshift
  exact ⟨e.shift offset, hshift, (Expression.span_source_of_ofBody he).2⟩

/-- Chunks are read back after a run of literal text, unless they begin with literal text too. -/
theorem ofLexemes_of_sequence {chunks : List Chunk} (h : Chunk.Sequence chunks)
    (hs : byteSize (chunks.flatMap Chunk.text) < offsetLimit) (offset : Nat) (run : List Lexeme)
    (hrun : spell run ≠ [] → ∀ next ∈ chunks.head?, next.isLiteral = false) :
    ∃ tokens, ofLexemes offset run (Lexeme.read braceCloser? (chunks.flatMap Chunk.text)) =
        .ok tokens ∧
      tokens.map chunk = (literal offset (spell run)).map chunk ++ chunks := by
  induction chunks generalizing run offset with
  | nil => exact ⟨literal offset (spell run), by simp [ofLexemes], by simp⟩
  | cons first rest ih =>
    rw [List.flatMap_cons, byteSize_append] at hs
    rw [List.flatMap_cons]
    cases first with
    | literal t =>
      obtain ⟨hne, ht, hnext, hrest⟩ := h
      have hempty : spell run = [] := by
        by_cases hr : spell run = []
        · exact hr
        · have := hrun hr (.literal t) rfl
          cases this
      have hopen : Literal t ∨ rest.flatMap Chunk.text = [] ∧ OpenLiteral t := by
        rcases ht with ht | ⟨rfl, ht⟩
        · exact .inl ht
        · exact .inr ⟨rfl, ht⟩
      obtain ⟨hread, hlit⟩ := Lexeme.read_literal_append hopen
      obtain ⟨tokens, htokens, hchunks⟩ :=
        ih hrest (by omega) offset (run ++ Lexeme.read braceCloser? t) fun _ => hnext
      refine ⟨tokens, by rw [Chunk.text, hread, ofLexemes_append hlit, htokens], ?_⟩
      rw [hchunks, Lexeme.spell_append, Lexeme.spell_read, hempty, List.nil_append,
        map_chunk_literal hne, literal_nil]
      rfl
    | group t =>
      obtain ⟨ht, hp, hrest⟩ := h
      have hclosed : Lexeme.Closed braceCloser? (.group '{' t) := .group rfl ht
      have hread := hclosed.read_append bracketing_braceCloser? (rest.flatMap Chunk.text)
      rw [Lexeme.text] at hread
      rw [Chunk.text] at hs ⊢
      obtain ⟨e, he, hsource⟩ :=
        exists_of_parse ht (by omega) hp (offset + byteSize (spell run))
      obtain ⟨tokens, htokens, hchunks⟩ :=
        ih hrest (by omega) (offset + byteSize (spell run) + byteSize t) [] (by simp)
      refine ⟨literal offset (spell run) ++ expression e :: tokens, ?_, ?_⟩
      · rw [hread]
        exact ofLexemes_group_eq_ok.mpr ⟨e, tokens, he, htokens, rfl⟩
      · rw [List.map_append, List.map_cons, hchunks, chunk, hsource]
        rfl

/-- Every sequence of chunks is what its text is tokenized into. -/
theorem exists_tokenize_of_sequence {chunks : List Chunk} (h : Chunk.Sequence chunks)
    (hs : byteSize (chunks.flatMap Chunk.text) < offsetLimit) :
    ∃ tokens, tokenize (chunks.flatMap Chunk.text) = .ok tokens ∧ tokens.map chunk = chunks := by
  obtain ⟨tokens, htokens, hchunks⟩ := ofLexemes_of_sequence h hs 0 [] (by simp)
  rw [Lexeme.spell_nil, literal_nil, List.map_nil, List.nil_append] at hchunks
  exact ⟨tokens, by rw [tokenize_eq hs, htokens], hchunks⟩

theorem exists_tokenize_of_open_quote :
    Chunk.Sequence
      [.literal "é'\x7b'".toList, .group "\x7ba '\x7d".toList, .literal "b \"\x7b".toList] ∧
    ∃ tokens, tokenize "é'\x7b'\x7ba '\x7db \"\x7b".toList = .ok tokens ∧ tokens.map chunk =
      [.literal "é'\x7b'".toList, .group "\x7ba '\x7d".toList, .literal "b \"\x7b".toList] := by
  have hquoted : Literal "é'\x7b'".toList :=
    .char (by decide) (by decide) (@Literal.run '\'' ['{'] [] (by decide) (by decide) .nil)
  have hblank : Literal "b ".toList :=
    .char (by decide) (by decide) (.char (by decide) (by decide) .nil)
  have hopen : OpenLiteral "b \"\x7b".toList :=
    @OpenLiteral.intro _ ['{'] '"' hblank (by decide) (by decide)
  have hgroup : Enclosed '{' '}' "\x7ba '\x7d".toList :=
    Expression.isBraced_iff.mp (by decide +kernel)
  have hparse : ∃ e, Expression.parse "\x7ba '\x7d".toList = .ok e :=
    ⟨⟨[⟨"a '".toList, none, none, ⟨1, 3⟩⟩], ⟨0, 5⟩, "\x7ba '\x7d".toList⟩, by decide +kernel⟩
  have hsequence : Chunk.Sequence
      [.literal "é'\x7b'".toList, .group "\x7ba '\x7d".toList, .literal "b \"\x7b".toList] :=
    ⟨by decide, .inl hquoted, by simp [Chunk.isLiteral], hgroup, hparse,
      by decide, .inr ⟨rfl, hopen⟩, by simp, trivial⟩
  exact ⟨hsequence, exists_tokenize_of_sequence hsequence (by decide)⟩

end Token

end Stencil
