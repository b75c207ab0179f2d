import Mathlib.Data.List.Forall2
import Stencil.Command.Response
import Stencil.Proofs.Item.Render
import Stencil.Proofs.Json.Written

/-!
# What the document of a template says

An item is described by the fields of an object, whatever their order: each field that
the item has is there with its text, and no other field is. Literal text is described by
a string and an expression by the array of its items. A description leaves out spans and
the texts that expressions were read from, and it determines everything else.
-/

set_option autoImplicit false

namespace Stencil

theorem map_eq_of_forall₂ {α β γ : Type} {R : α → β → Prop} {f : α → γ}
    (hR : ∀ a a' b, R a b → R a' b → f a = f a') {l l' : List α} {m : List β}
    (h : List.Forall₂ R l m) (h' : List.Forall₂ R l' m) : l.map f = l'.map f := by
  induction h generalizing l' with
  | nil =>
    cases h'
    rfl
  | cons hab _ ih =>
    cases h' with
    | cons hab' h' => rw [List.map_cons, List.map_cons, hR _ _ _ hab hab', ih h']

def Item.fieldNames : List Text :=
  ["value".toList, "key".toList, "condition".toList, "normalizedCondition".toList]

structure Item.Described (item : Item) (fields : List (Text × Json)) : Prop where
  names : ∀ name ∈ fields.map Prod.fst, name ∈ Item.fieldNames
  once : (fields.map Prod.fst).Nodup
  value : fields.lookup "value".toList = some (.string item.value)
  key : fields.lookup "key".toList = item.key.map .string
  condition : fields.lookup "condition".toList = item.condition.map .string
  normalized : fields.lookup "normalizedCondition".toList = item.normalized.map .string

def Expression.Described (e : Expression) (document : Json) : Prop :=
  ∃ objects, document = .array (objects.map .object) ∧
    List.Forall₂ Item.Described e.items objects

inductive Token.Described : Token → Json → Prop
  | text (t : Text) (span : Span) : Described (text t span) (.string t)
  | expression {e : Expression} {document : Json} (h : e.Described document) :
      Described (expression e) document

def Token.content : Token → Text ⊕ List (Text × Option Text × Option Text × Option Text)
  | text t _ => .inl t
  | expression e => .inr (e.items.map Item.content)

theorem Json.string_injective : Function.Injective Json.string := fun _ _ => Json.string.inj

theorem Item.content_of_described {item item' : Item} {fields : List (Text × Json)}
    (h : item.Described fields) (h' : item'.Described fields) : item.content = item'.content := by
  have hvalue : item.value = item'.value :=
    Json.string_injective (Option.some.inj (h.value.symm.trans h'.value))
  have hkey : item.key = item'.key :=
    Option.map_injective Json.string_injective (h.key.symm.trans h'.key)
  have hcondition : item.condition = item'.condition :=
    Option.map_injective Json.string_injective (h.condition.symm.trans h'.condition)
  have hnormalized : item.normalized = item'.normalized :=
    Option.map_injective Json.string_injective (h.normalized.symm.trans h'.normalized)
  rw [content, content, hvalue, hkey, hcondition, hnormalized]

theorem Expression.content_of_described {e e' : Expression} {document : Json}
    (h : e.Described document) (h' : e'.Described document) :
    e.items.map Item.content = e'.items.map Item.content := by
  obtain ⟨objects, rfl, h⟩ := h
  obtain ⟨objects', hobjects, h'⟩ := h'
  have hinjective : Function.Injective Json.object := fun _ _ => Json.object.inj
  obtain rfl := List.map_injective_iff.mpr hinjective (Json.array.inj hobjects)
  have hitem : ∀ (item item' : Item) (fields : List (Text × Json)), item.Described fields →
      item'.Described fields → item.content = item'.content :=
    fun _ _ _ => Item.content_of_described
  exact map_eq_of_forall₂ hitem h h'

theorem Token.content_of_described {token token' : Token} {document : Json}
    (h : token.Described document) (h' : token'.Described document) :
    token.content = token'.content := by
  cases h with
  | text t span =>
    cases h' with
    | text => rfl
    | expression h' =>
      obtain ⟨_, hdocument, _⟩ := h'
      cases hdocument
  | expression h =>
    cases h' with
    | text =>
      obtain ⟨_, hdocument, _⟩ := h
      cases hdocument
    | expression h' => rw [content, content, Expression.content_of_described h h']

theorem Item.exists_described (item : Item) :
    ∃ fields, item.toJson = .object fields ∧ item.Described fields := by
  refine ⟨_, rfl, ?_⟩
  obtain ⟨value, key, condition, span⟩ := item
  cases key <;> cases condition <;> constructor <;>
    simp [normalized, fieldNames, List.lookup_cons]

theorem Expression.described_toJson (e : Expression) : e.Described e.toJson := by
  have h : ∀ items : List Item, ∃ objects : List (List (Text × Json)),
      items.map Item.toJson = objects.map .object ∧ List.Forall₂ Item.Described items objects := by
    intro items
    induction items with
    | nil => exact ⟨[], rfl, .nil⟩
    | cons item items ih =>
      obtain ⟨fields, hfields, hitem⟩ := item.exists_described
      obtain ⟨objects, hobjects, hitems⟩ := ih
      exact ⟨fields :: objects, by simp [hfields, hobjects], .cons hitem hitems⟩
  obtain ⟨objects, hobjects, hitems⟩ := h e.items
  exact ⟨objects, congrArg Json.array hobjects, hitems⟩

theorem Token.described_toJson (token : Token) : token.Described token.toJson := by
  cases token with
  | text t span => exact .text t span
  | expression e => exact .expression e.described_toJson

namespace Command

inductive Holds (input : Text) : Bool → List Token → Prop
  | template {tokens : List Token} (h : tokenize input = .ok tokens) : Holds input false tokens
  | expression {e : Expression} (h : Expression.parse input = .ok e) :
      Holds input true [.expression e]

inductive Described : Bool → List Token → Json → Prop
  | template {tokens : List Token} {documents : List Json}
      (h : List.Forall₂ Token.Described tokens documents) :
      Described false tokens (.array documents)
  | expression {e : Expression} {document : Json} (h : e.Described document) :
      Described true [.expression e] document

theorem Described.content {single : Bool} {tokens tokens' : List Token} {document : Json}
    (h : Described single tokens document) (h' : Described single tokens' document) :
    tokens.map Token.content = tokens'.map Token.content := by
  cases h with
  | template h =>
    cases h' with
    | template h' =>
      have htoken : ∀ (token token' : Token) (d : Json), token.Described d →
          token'.Described d → token.content = token'.content :=
        fun _ _ _ => Token.content_of_described
      exact map_eq_of_forall₂ htoken h h'
  | expression h =>
    cases h' with
    | expression h' => simp [Token.content, Expression.content_of_described h h']

structure Options.Documents (options : Options) (single : Bool) : Prop where
  json : options.has .json = true
  check : options.has .check = false
  expr : options.has .expr = single

theorem Options.read_of_holds {options : Options} {input : Text} {tokens : List Token}
    (h : Holds input (options.has .expr) tokens) : options.read input = .ok tokens := by
  generalize hsingle : options.has .expr = single at h
  cases h with
  | template h => simpa [Options.read, hsingle] using h
  | expression h => simp [Options.read, hsingle, h, bind, Except.bind, pure, Except.pure]

/-- The document of an input, which no layout changes. -/
theorem exists_document {input : Text} {single : Bool} {tokens : List Token}
    (h : Holds input single tokens) :
    ∃ document, Described single tokens document ∧
      ∀ options : Options, options.has .expr = single → options.document tokens = document := by
  cases h with
  | template =>
    have htokens : ∀ tokens : List Token,
        List.Forall₂ Token.Described tokens (tokens.map Token.toJson) := by
      intro tokens
      rw [List.forall₂_map_right_iff, List.forall₂_same]
      exact fun token _ => token.described_toJson
    refine ⟨tokensJson tokens, .template (htokens tokens), ?_⟩
    intro options ho
    simp [Options.document, ho]
  | expression =>
    rename_i e _
    refine ⟨e.toJson, .expression e.described_toJson, ?_⟩
    intro options ho
    simp [Options.document, ho]

theorem Options.Documents.exists_output {options : Options} {single : Bool}
    (ho : options.Documents single) (palette : Palette) {input : Text} {tokens : List Token}
    (h : Holds input single tokens) :
    ∃ layout, (options.respond palette (.ok input)).output =
      (options.document tokens).render layout ++ ['\n'] := by
  have hread := Options.read_of_holds (ho.expr ▸ h)
  refine ⟨if options.has .pretty then .pretty else .compact, ?_⟩
  simp [respond, hread, render, ho.check, ho.json]

/-- The output of a run is a document in JSON, the same one whatever its layout. It says
what each token is about, and two inputs with one document differ in spans and in the
texts that their expressions were read from at most. -/
theorem json_determines {input : Text} {single : Bool} {tokens : List Token}
    (h : Holds input single tokens) :
    ∃ document, Described single tokens document ∧
      (∀ (options : Options) (palette : Palette), options.Documents single → ∀ other,
        Json.Denotes (options.respond palette (.ok input)).output other ↔ other = document) ∧
      ∀ (options : Options) (palette : Palette) (input' : Text) (tokens' : List Token),
        options.Documents single → Holds input' single tokens' →
        Json.Denotes (options.respond palette (.ok input')).output document →
        tokens'.map Token.content = tokens.map Token.content := by
  obtain ⟨document, hdescribed, hdocument⟩ := exists_document h
  refine ⟨document, hdescribed, ?_, ?_⟩
  · intro options palette ho other
    obtain ⟨layout, houtput⟩ := ho.exists_output palette h
    have hdenotes := Json.denotes_render layout document ['\n'] rfl
    rw [houtput, hdocument options ho.expr]
    constructor
    · exact fun hother => hother.unique hdenotes
    · rintro rfl
      exact hdenotes
  · intro options palette input' tokens' ho h' houtput'
    obtain ⟨document', hdescribed', hdocument'⟩ := exists_document h'
    obtain ⟨layout, houtput⟩ := ho.exists_output palette h'
    rw [houtput, hdocument' options ho.expr] at houtput'
    have hdenotes := Json.denotes_render layout document' ['\n'] rfl
    obtain rfl := houtput'.unique hdenotes
    exact hdescribed'.content hdescribed

theorem json_determines_control_character :
    ∃ tokens tokens',
      tokenize "\x01\x7bk: \"é\"\x7d".toList = .ok tokens ∧
      tokenize "\x01\x7b k : \"é\"\x7d".toList = .ok tokens' ∧
      tokens'.map Token.content = tokens.map Token.content ∧
      ∀ other,
        Json.Denotes "[\"\\u0001\",[\x7b\"value\":\"\\\"é\\\"\",\"key\":\"k\"\x7d]]\n".toList other ↔
        Json.Denotes ("[\n  \"\\u0001\",\n  [\n    \x7b\n      \"value\": \"\\\"é\\\"\",\n" ++
          "      \"key\": \"k\"\n    \x7d\n  ]\n]\n").toList other := by
  have h : tokenize "\x01\x7bk: \"é\"\x7d".toList = .ok
      [.text ['\x01'] ⟨0, 1⟩, .expression
        ⟨[⟨"\"é\"".toList, some ['k'], none, ⟨2, 7⟩⟩], ⟨1, 9⟩, "\x7bk: \"é\"\x7d".toList⟩] := by
    decide +kernel
  have h' : tokenize "\x01\x7b k : \"é\"\x7d".toList = .ok
      [.text ['\x01'] ⟨0, 1⟩, .expression
        ⟨[⟨"\"é\"".toList, some ['k'], none, ⟨3, 8⟩⟩], ⟨1, 11⟩, "\x7b k : \"é\"\x7d".toList⟩] := by
    decide +kernel
  have hcompact : Options.Documents ⟨[.json], none⟩ false := ⟨rfl, rfl, rfl⟩
  have hpretty : Options.Documents ⟨[.json, .pretty], none⟩ false := ⟨rfl, rfl, rfl⟩
  have hprinted : (Options.respond ⟨[.json], none⟩ .none
      (.ok "\x01\x7bk: \"é\"\x7d".toList)).output =
        "[\"\\u0001\",[\x7b\"value\":\"\\\"é\\\"\",\"key\":\"k\"\x7d]]\n".toList := by
    decide +kernel
  have hprinted' : (Options.respond ⟨[.json], none⟩ .none
      (.ok "\x01\x7b k : \"é\"\x7d".toList)).output =
        "[\"\\u0001\",[\x7b\"value\":\"\\\"é\\\"\",\"key\":\"k\"\x7d]]\n".toList := by
    decide +kernel
  have hbroken : (Options.respond ⟨[.json, .pretty], none⟩ .none
      (.ok "\x01\x7bk: \"é\"\x7d".toList)).output =
        ("[\n  \"\\u0001\",\n  [\n    \x7b\n      \"value\": \"\\\"é\\\"\",\n" ++
          "      \"key\": \"k\"\n    \x7d\n  ]\n]\n").toList := by
    decide +kernel
  obtain ⟨document, _, houtput, hsame⟩ := json_determines (.template h)
  have hdenotes := houtput _ .none hcompact
  rw [hprinted] at hdenotes
  refine ⟨_, _, h, h', hsame _ .none _ _ hcompact (.template h') ?_, ?_⟩
  · rw [hprinted', hdenotes]
  · intro other
    rw [hdenotes, ← hbroken, houtput _ .none hpretty]

end Command

end Stencil
