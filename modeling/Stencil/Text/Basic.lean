/-!
# Texts and their byte offsets

A text is the list of its characters. A position in it counts the UTF-8 bytes
before it, so a number is a position only if it falls between two characters.
`splitBytes?` cuts a text at a position and answers nothing for a number inside
a character or past the end.
-/

set_option autoImplicit false

namespace Stencil

abbrev Text := List Char

def byteSize : Text → Nat
  | [] => 0
  | c :: t => c.utf8Size + byteSize t

@[simp] theorem byteSize_nil : byteSize [] = 0 := rfl

@[simp] theorem byteSize_cons (c : Char) (t : Text) :
    byteSize (c :: t) = c.utf8Size + byteSize t := rfl

@[simp] theorem byteSize_append (s t : Text) : byteSize (s ++ t) = byteSize s + byteSize t := by
  induction s with
  | nil => simp
  | cons c s ih => simp [ih, Nat.add_assoc]

theorem byteSize_eq_zero {t : Text} : byteSize t = 0 ↔ t = [] := by
  cases t with
  | nil => simp
  | cons c t => simp [Nat.ne_of_gt c.utf8Size_pos]

theorem length_le_byteSize (t : Text) : t.length ≤ byteSize t := by
  induction t with
  | nil => exact Nat.le_refl 0
  | cons c t ih =>
    have hc := c.utf8Size_pos
    rw [List.length_cons, byteSize_cons]
    omega

def splitBytes? : Nat → Text → Option (Text × Text)
  | 0, t => some ([], t)
  | _ + 1, [] => none
  | n + 1, c :: t =>
    if c.utf8Size ≤ n + 1 then
      match splitBytes? (n + 1 - c.utf8Size) t with
      | some (s, rest) => some (c :: s, rest)
      | none => none
    else none

theorem splitBytes?_append (s t : Text) : splitBytes? (byteSize s) (s ++ t) = some (s, t) := by
  induction s with
  | nil => simp [splitBytes?]
  | cons c s ih =>
    have hc := c.utf8Size_pos
    rw [byteSize_cons, show c.utf8Size + byteSize s = (c.utf8Size + byteSize s - 1) + 1 by omega]
    simp only [List.cons_append, splitBytes?]
    rw [if_pos (by omega), show c.utf8Size + byteSize s - 1 + 1 - c.utf8Size = byteSize s by omega]
    rw [ih]

/-- A cut falls between two characters and loses nothing. -/
theorem splitBytes?_eq_some {n : Nat} {text s rest : Text} :
    splitBytes? n text = some (s, rest) ↔ text = s ++ rest ∧ byteSize s = n := by
  constructor
  · intro h
    fun_induction splitBytes? n text generalizing s rest with
    | case1 t => simp_all
    | case2 => simp at h
    | case3 n c t hc s' rest' h' ih =>
      obtain ⟨rfl, rfl⟩ : c :: s' = s ∧ rest' = rest := by simpa using h
      obtain ⟨rfl, hs⟩ := ih h'
      exact ⟨rfl, by rw [byteSize_cons]; omega⟩
    | case4 => simp at h
    | case5 => simp at h
  · rintro ⟨rfl, rfl⟩
    exact splitBytes?_append s rest

theorem append_inj_byteSize {s s' t t' : Text} (h : s ++ t = s' ++ t')
    (hs : byteSize s = byteSize s') : s = s' ∧ t = t' := by
  have hcut := splitBytes?_append s t
  rw [h, hs, splitBytes?_append] at hcut
  simpa [eq_comm] using hcut

def decimal (n : Nat) : Text := Nat.toDigits 10 n

end Stencil
