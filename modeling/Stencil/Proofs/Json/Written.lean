import Stencil.Proofs.Json

/-!
# What is written in JSON denotes what was written

Every escape is read back as its character, and the line breaks of the pretty layout
are blanks that stand before a mark or a value. So both layouts of a document denote it,
and two documents that are written alike are the same.
-/

set_option autoImplicit false

namespace Stencil.Json

theorem hexDigit?_digitChar : ∀ n < 16, hexDigit? (Nat.digitChar n) = some n := by
  decide

theorem char?_control {c : Char} (h : c.toNat < 0x20) (rest : Text) :
    char? (['\\', 'u', '0', '0', Nat.digitChar (c.toNat / 16), Nat.digitChar (c.toNat % 16)]
      ++ rest) = some (c, rest) := by
  have hhigh := hexDigit?_digitChar (c.toNat / 16) (by omega)
  have hlow := hexDigit?_digitChar (c.toNat % 16) (by omega)
  have hzero : hexDigit? '0' = some 0 := rfl
  have hnumber : (0 * 16 + 0) * 256 + c.toNat / 16 * 16 + c.toNat % 16 = c.toNat := by omega
  simp only [List.cons_append, List.nil_append, char?, unicode?, unit?, hhigh, hlow, hzero, bind,
    Option.bind, pure, hnumber]
  rw [if_pos (by simp; omega), Char.ofNat_toNat]

theorem char?_escapeChar (c : Char) (rest : Text) :
    char? (escapeChar c ++ rest) = some (c, rest) := by
  by_cases hletter : c ∈ ['"', '\\', '\x08', '\x0c', '\n', '\r', '\t']
  · simp only [List.mem_cons, List.not_mem_nil, or_false] at hletter
    rcases hletter with rfl | rfl | rfl | rfl | rfl | rfl | rfl <;> rfl
  simp only [List.mem_cons, List.not_mem_nil, or_false, not_or] at hletter
  obtain ⟨hquote, hbackslash, hb, hf, hn, hr, ht⟩ := hletter
  by_cases hcontrol : c.toNat < 0x20
  · have hescape : escapeChar c =
        ['\\', 'u', '0', '0', Nat.digitChar (c.toNat / 16), Nat.digitChar (c.toNat % 16)] := by
      simp [escapeChar, hquote, hbackslash, hb, hf, hn, hr, ht, hcontrol]
    rw [hescape]
    exact char?_control hcontrol rest
  · have hescape : escapeChar c = [c] := by
      simp [escapeChar, hquote, hbackslash, hb, hf, hn, hr, ht, hcontrol]
    rw [hescape, List.singleton_append]
    simp [char?, hquote, hbackslash, hcontrol]

theorem chars_escape (value rest : Text) :
    Chars (value.flatMap escapeChar ++ '"' :: rest) value rest := by
  induction value with
  | nil => exact .close rest
  | cons c value ih =>
    rw [List.flatMap_cons, List.append_assoc]
    exact .next (char?_escapeChar c _) ih

theorem skipGap_lineBreak (layout : Layout) (depth : Nat) {c : Char} (hc : isGap c = false)
    (t : Text) : skipGap (layout.lineBreak depth ++ c :: t) = c :: t := by
  cases layout with
  | compact => simp [Layout.lineBreak, skipGap, hc]
  | pretty =>
    have hblank : ∀ b ∈ Layout.pretty.lineBreak depth, isGap b = true := by
      simp [Layout.lineBreak, isGap]
    rw [skipGap, List.dropWhile_append_of_pos hblank]
    simp [hc]

def Layout.closing (layout : Layout) (depth : Nat) (closer : Char) (elements : List Text)
    (rest : Text) : Text :=
  elements.flatMap (fun element => ',' :: (layout.lineBreak (depth + 1) ++ element))
    ++ (layout.lineBreak depth ++ closer :: rest)

theorem enclose_cons (layout : Layout) (depth : Nat) (opener closer : Char) (element : Text)
    (elements : List Text) (rest : Text) :
    layout.enclose depth opener closer (element :: elements) ++ rest =
      opener :: (layout.lineBreak (depth + 1)
        ++ (element ++ layout.closing depth closer elements rest)) := by
  have hjoin : (',' :: layout.lineBreak (depth + 1)).intercalate (element :: elements) =
      element ++ elements.flatMap fun e => ',' :: (layout.lineBreak (depth + 1) ++ e) := by
    induction elements generalizing element with
    | nil => simp
    | cons next elements ih => simp [List.intercalate_cons_cons, ih]
  simp [Layout.enclose, hjoin, Layout.closing]

theorem exists_enclose_eq_cons (layout : Layout) (depth : Nat) (opener closer : Char)
    (elements : List Text) : ∃ t, layout.enclose depth opener closer elements = opener :: t := by
  cases elements with
  | nil => exact ⟨_, rfl⟩
  | cons element elements => exact ⟨_, rfl⟩

theorem exists_write_eq_cons (layout : Layout) (depth : Nat) (document : Json) :
    ∃ c t, isGap c = false ∧ document.write layout depth = c :: t := by
  cases document with
  | string value => exact ⟨'"', _, rfl, by rw [write, writeString]; rfl⟩
  | array elements =>
    obtain ⟨t, ht⟩ := exists_enclose_eq_cons layout depth '[' ']'
      (writeElements layout (depth + 1) elements)
    exact ⟨'[', t, rfl, by rw [write, ht]⟩
  | object fields =>
    obtain ⟨t, ht⟩ := exists_enclose_eq_cons layout depth '{' '}'
      (writeFields layout (depth + 1) fields)
    exact ⟨'{', t, rfl, by rw [write, ht]⟩

theorem skipGap_write (layout : Layout) (depth : Nat) (document : Json) (rest : Text) :
    skipGap (document.write layout depth ++ rest) = document.write layout depth ++ rest := by
  obtain ⟨c, t, hc, ht⟩ := exists_write_eq_cons layout depth document
  rw [ht, List.cons_append]
  exact skipGap_lineBreak .compact 0 hc _

theorem skipGap_lineBreak_write (layout : Layout) (depth depth' : Nat) (document : Json)
    (rest : Text) :
    skipGap (layout.lineBreak depth ++ (document.write layout depth' ++ rest)) =
      document.write layout depth' ++ rest := by
  obtain ⟨c, t, hc, ht⟩ := exists_write_eq_cons layout depth' document
  rw [ht, List.cons_append]
  exact skipGap_lineBreak layout depth hc _

theorem name_write (layout : Layout) (depth : Nat) (name : Text) (value : Json) (rest : Text) :
    Name (writeString name ++ layout.colon ++ value.write layout depth ++ rest) name
      (value.write layout depth ++ rest) := by
  have hvalue : skipGap (value.write layout depth ++ rest) = value.write layout depth ++ rest :=
    skipGap_write layout depth value rest
  cases layout with
  | compact =>
    rw [← hvalue]
    simpa [writeString, Layout.colon] using Name.intro (chars_escape name _) rfl
  | pretty =>
    have hblank : skipGap (' ' :: (value.write .pretty depth ++ rest)) =
        value.write .pretty depth ++ rest := hvalue
    rw [← hblank]
    simpa [writeString, Layout.colon] using Name.intro (chars_escape name _) rfl

theorem elementStart?_comma (layout : Layout) (depth : Nat) {t : Text}
    (ht : skipGap (layout.lineBreak depth ++ t) = t) :
    elementStart? false (',' :: (layout.lineBreak depth ++ t)) = some t := by
  have hcomma : skipGap (',' :: (layout.lineBreak depth ++ t)) =
      ',' :: (layout.lineBreak depth ++ t) := rfl
  simp [elementStart?, hcomma, ht]

theorem skipGap_closing (layout : Layout) (depth : Nat) {closer : Char}
    (hc : isGap closer = false) (rest : Text) :
    skipGap (layout.closing depth closer [] rest) = closer :: rest := by
  simpa [Layout.closing] using skipGap_lineBreak layout depth hc rest

theorem closing_cons (layout : Layout) (depth : Nat) (closer : Char) (element : Text)
    (elements : List Text) (rest : Text) :
    layout.closing depth closer (element :: elements) rest =
      ',' :: (layout.lineBreak (depth + 1)
        ++ (element ++ layout.closing depth closer elements rest)) := by
  simp [Layout.closing]

theorem skipGap_field (layout : Layout) (depth : Nat) (name t : Text) :
    skipGap (layout.lineBreak depth ++ (writeString name ++ t)) = writeString name ++ t := by
  rw [writeString]
  exact skipGap_lineBreak layout depth rfl _

mutual

theorem value_write (layout : Layout) (depth : Nat) : (document : Json) → (rest : Text) →
    Value (document.write layout depth ++ rest) document rest
  | .string value, rest => by
    have hchars := chars_escape value rest
    refine .string ?_ hchars
    simp [write, writeString]
  | .array [], rest => by
    rw [write, writeElements]
    exact .array rfl (.close rfl)
  | .array (element :: elements), rest => by
    have hv := value_write layout (depth + 1) element
    have hr := elements_write layout depth elements rest
    rw [write, writeElements, enclose_cons]
    refine .array rfl (.next ?_ (hv _) hr)
    rw [elementStart?, if_pos rfl, skipGap_lineBreak_write]
  | .object [], rest => by
    rw [write, writeFields]
    exact .object rfl (.close rfl)
  | .object ((name, value) :: fields), rest => by
    have hv := value_write layout (depth + 1) value
    have hr := fields_write layout depth fields rest
    have hn := name_write layout (depth + 1) name value
    rw [write, writeFields, enclose_cons]
    refine .object rfl (.next ?_ (hn _) (hv _) hr)
    simp only [elementStart?, if_pos, List.append_assoc, skipGap_field]

theorem elements_write (layout : Layout) (depth : Nat) : (elements : List Json) → (rest : Text) →
    Elements false (layout.closing depth ']' (writeElements layout (depth + 1) elements) rest)
      elements rest
  | [], rest => .close (skipGap_closing layout depth rfl rest)
  | element :: elements, rest => by
    have hv := value_write layout (depth + 1) element
    have hr := elements_write layout depth elements rest
    rw [writeElements, closing_cons]
    exact .next (elementStart?_comma layout _ (skipGap_lineBreak_write layout _ _ element _)) (hv _) hr

theorem fields_write (layout : Layout) (depth : Nat) : (fields : List (Text × Json)) →
    (rest : Text) →
    Fields false (layout.closing depth '}' (writeFields layout (depth + 1) fields) rest)
      fields rest
  | [], rest => .close (skipGap_closing layout depth rfl rest)
  | (name, value) :: fields, rest => by
    have hv := value_write layout (depth + 1) value
    have hr := fields_write layout depth fields rest
    have hn := name_write layout (depth + 1) name value
    rw [writeFields, closing_cons]
    refine .next (elementStart?_comma layout _ ?_) (hn _) (hv _) hr
    simp only [List.append_assoc, skipGap_field]

end

/-- Blanks may follow a document that is written. -/
theorem denotes_render (layout : Layout) (document : Json) (gap : Text)
    (hgap : skipGap gap = []) : Denotes (document.render layout ++ gap) document := by
  have hstart : skipGap (document.render layout ++ gap) = document.render layout ++ gap :=
    skipGap_write layout 0 document gap
  refine ⟨gap, ?_, hgap⟩
  rw [hstart]
  exact value_write layout 0 document gap

end Stencil.Json
