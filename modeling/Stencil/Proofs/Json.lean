import Stencil.Json

/-!
# What a text in JSON denotes

The grammar of documents made of strings, arrays and objects. Blanks may stand around
every mark, a string may escape any of its characters, and a character beyond the
first plane is escaped as two surrogates. The grammar tells what is read from the head
of a text and what is left of it; a text denotes at most one document.
-/

set_option autoImplicit false

namespace Stencil.Json

def isGap (c : Char) : Bool := c == ' ' || c == '\t' || c == '\n' || c == '\r'

def skipGap (t : Text) : Text := t.dropWhile isGap

def escaped? : Char → Option Char
  | '"' => some '"'
  | '\\' => some '\\'
  | '/' => some '/'
  | 'b' => some '\x08'
  | 'f' => some '\x0c'
  | 'n' => some '\n'
  | 'r' => some '\r'
  | 't' => some '\t'
  | _ => none

def hexDigit? (c : Char) : Option Nat :=
  if '0' ≤ c ∧ c ≤ '9' then some (c.toNat - '0'.toNat)
  else if 'a' ≤ c ∧ c ≤ 'f' then some (c.toNat - 'a'.toNat + 10)
  else if 'A' ≤ c ∧ c ≤ 'F' then some (c.toNat - 'A'.toNat + 10)
  else none

def unit? : Text → Option (Nat × Text)
  | a :: b :: c :: d :: rest => do
    return (((← hexDigit? a) * 16 + (← hexDigit? b)) * 256
      + (← hexDigit? c) * 16 + (← hexDigit? d), rest)
  | _ => none

def unicode? (t : Text) : Option (Char × Text) := do
  let (high, rest) ← unit? t
  if high < 0xD800 || 0xE000 ≤ high then return (Char.ofNat high, rest)
  match rest with
  | '\\' :: 'u' :: rest =>
    let (low, rest) ← unit? rest
    if high < 0xDC00 && 0xDC00 ≤ low && low < 0xE000 then
      return (Char.ofNat (0x10000 + (high - 0xD800) * 0x400 + (low - 0xDC00)), rest)
    else none
  | _ => none

def char? : Text → Option (Char × Text)
  | [] => none
  | '\\' :: 'u' :: rest => unicode? rest
  | '\\' :: c :: rest => (escaped? c).map (·, rest)
  | c :: rest => if c = '"' || c = '\\' || c.toNat < 0x20 then none else some (c, rest)

inductive Chars : Text → Text → Text → Prop
  | close (rest : Text) : Chars ('"' :: rest) [] rest
  | next {t u rest value : Text} {c : Char} (hc : char? t = some (c, u)) (h : Chars u value rest) :
      Chars t (c :: value) rest

def elementStart? (first : Bool) (t : Text) : Option Text :=
  if first then some (skipGap t)
  else
    match skipGap t with
    | ',' :: s => some (skipGap s)
    | _ => none

inductive Name : Text → Text → Text → Prop
  | intro {s t rest name : Text} (h : Chars s name t) (hc : skipGap t = ':' :: rest) :
      Name ('"' :: s) name (skipGap rest)

mutual

inductive Value : Text → Json → Text → Prop
  | string {t s rest value : Text} (ht : t = '"' :: s) (h : Chars s value rest) :
      Value t (.string value) rest
  | array {t s rest : Text} {elements : List Json} (ht : t = '[' :: s)
      (h : Elements true s elements rest) : Value t (.array elements) rest
  | object {t s rest : Text} {fields : List (Text × Json)} (ht : t = '{' :: s)
      (h : Fields true s fields rest) : Value t (.object fields) rest

inductive Elements : Bool → Text → List Json → Text → Prop
  | close {first : Bool} {t rest : Text} (ht : skipGap t = ']' :: rest) :
      Elements first t [] rest
  | next {first : Bool} {t u w rest : Text} {element : Json} {elements : List Json}
      (ht : elementStart? first t = some u) (hv : Value u element w)
      (hr : Elements false w elements rest) : Elements first t (element :: elements) rest

inductive Fields : Bool → Text → List (Text × Json) → Text → Prop
  | close {first : Bool} {t rest : Text} (ht : skipGap t = '}' :: rest) : Fields first t [] rest
  | next {first : Bool} {t u v w rest name : Text} {value : Json} {fields : List (Text × Json)}
      (ht : elementStart? first t = some u) (hn : Name u name v) (hv : Value v value w)
      (hr : Fields false w fields rest) : Fields first t ((name, value) :: fields) rest

end

def Denotes (t : Text) (document : Json) : Prop :=
  ∃ rest, Value (skipGap t) document rest ∧ skipGap rest = []

theorem Chars.unique {t value value' rest rest' : Text} (h : Chars t value rest)
    (h' : Chars t value' rest') : value = value' ∧ rest = rest' := by
  induction h generalizing value' with
  | close rest =>
    cases h' with
    | close => exact ⟨rfl, rfl⟩
    | next hc => cases hc
  | next hc h ih =>
    cases h' with
    | close => cases hc
    | next hc' h' =>
      obtain ⟨rfl, rfl⟩ : _ = _ ∧ _ = _ := by simpa [hc] using hc'
      obtain ⟨rfl, rfl⟩ := ih h'
      exact ⟨rfl, rfl⟩

theorem Name.unique {t name name' rest rest' : Text} (h : Name t name rest)
    (h' : Name t name' rest') : name = name' ∧ rest = rest' := by
  cases h with
  | intro h hc =>
    cases h' with
    | intro h' hc' =>
      obtain ⟨rfl, rfl⟩ := h.unique h'
      obtain rfl : _ = _ := by simpa [hc] using hc'
      exact ⟨rfl, rfl⟩

theorem eq_of_elementStart? {first : Bool} {t u rest : Text} {c : Char} (ht : skipGap t = c :: rest)
    (hc : c ≠ ',') (h : elementStart? first t = some u) : u = c :: rest := by
  cases first with
  | true => simpa [elementStart?, ht, eq_comm] using h
  | false => simp [elementStart?, ht, hc] at h

/-- No element begins with the mark that ends an array. -/
theorem Value.ne_closer {rest u : Text} {document : Json} :
    ¬ Value (']' :: rest) document u := by
  intro h
  cases h with
  | string ht => cases ht
  | array ht => cases ht
  | object ht => cases ht

mutual

theorem Value.unique {t rest rest' : Text} {document document' : Json}
    (h : Value t document rest) (h' : Value t document' rest') :
    document = document' ∧ rest = rest' := by
  cases h with
  | string ht h =>
    cases h' with
    | string ht' h' =>
      obtain rfl : _ = _ := by simpa [ht] using ht'
      obtain ⟨rfl, rfl⟩ := h.unique h'
      exact ⟨rfl, rfl⟩
    | array ht' => simp [ht] at ht'
    | object ht' => simp [ht] at ht'
  | array ht h =>
    cases h' with
    | string ht' => simp [ht] at ht'
    | array ht' h' =>
      obtain rfl : _ = _ := by simpa [ht] using ht'
      obtain ⟨rfl, rfl⟩ := Elements.unique h h'
      exact ⟨rfl, rfl⟩
    | object ht' => simp [ht] at ht'
  | object ht h =>
    cases h' with
    | string ht' => simp [ht] at ht'
    | array ht' => simp [ht] at ht'
    | object ht' h' =>
      obtain rfl : _ = _ := by simpa [ht] using ht'
      obtain ⟨rfl, rfl⟩ := Fields.unique h h'
      exact ⟨rfl, rfl⟩

theorem Elements.unique {first : Bool} {t rest rest' : Text} {elements elements' : List Json}
    (h : Elements first t elements rest) (h' : Elements first t elements' rest') :
    elements = elements' ∧ rest = rest' := by
  cases h with
  | close ht =>
    cases h' with
    | close ht' => exact ⟨rfl, by simpa [ht] using ht'⟩
    | next ht' hv' =>
      rw [eq_of_elementStart? ht (by decide) ht'] at hv'
      exact absurd hv' Value.ne_closer
  | next ht hv hr =>
    cases h' with
    | close ht' =>
      rw [eq_of_elementStart? ht' (by decide) ht] at hv
      exact absurd hv Value.ne_closer
    | next ht' hv' hr' =>
      obtain rfl : _ = _ := by simpa [ht] using ht'
      obtain ⟨rfl, rfl⟩ := Value.unique hv hv'
      obtain ⟨rfl, rfl⟩ := Elements.unique hr hr'
      exact ⟨rfl, rfl⟩

theorem Fields.unique {first : Bool} {t rest rest' : Text} {fields fields' : List (Text × Json)}
    (h : Fields first t fields rest) (h' : Fields first t fields' rest') :
    fields = fields' ∧ rest = rest' := by
  cases h with
  | close ht =>
    cases h' with
    | close ht' => exact ⟨rfl, by simpa [ht] using ht'⟩
    | next ht' hn' =>
      rw [eq_of_elementStart? ht (by decide) ht'] at hn'
      cases hn'
  | next ht hn hv hr =>
    cases h' with
    | close ht' =>
      rw [eq_of_elementStart? ht' (by decide) ht] at hn
      cases hn
    | next ht' hn' hv' hr' =>
      obtain rfl : _ = _ := by simpa [ht] using ht'
      obtain ⟨rfl, rfl⟩ := hn.unique hn'
      obtain ⟨rfl, rfl⟩ := Value.unique hv hv'
      obtain ⟨rfl, rfl⟩ := Fields.unique hr hr'
      exact ⟨rfl, rfl⟩

end

/-- A text denotes one document at most. -/
theorem Denotes.unique {t : Text} {document document' : Json} (h : Denotes t document)
    (h' : Denotes t document') : document = document' := by
  obtain ⟨_, hv, _⟩ := h
  obtain ⟨_, hv', _⟩ := h'
  exact (hv.unique hv').1

end Stencil.Json
