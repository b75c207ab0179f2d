import Stencil.Text.Basic

/-!
# Bracket groups and quoted runs

What stands inside a bracket group or a quoted run is opaque. A group reaches
from its opener to the closer that brings the openers and closers of its own
kind into balance; quotes and other brackets inside it do not count. A quoted
run reaches to the next quote of its own kind, or to the end of the text.
-/

set_option autoImplicit false

namespace Stencil

def closer? : Char → Option Char
  | '{' => some '}'
  | '[' => some ']'
  | '(' => some ')'
  | _ => none

def braceCloser? : Char → Option Char
  | '{' => some '}'
  | _ => none

def isQuote (c : Char) : Bool := c == '"' || c == '\''

def consFirst (c : Char) : Text × Text → Text × Text
  | (s, rest) => (c :: s, rest)

/-- Cuts a text after the closer of a group whose opener has been read, with
`depth` groups of the same kind open inside it. Nothing if the text ends first. -/
def splitGroup? (opener closer : Char) : Nat → Text → Option (Text × Text)
  | _, [] => none
  | depth, c :: rest =>
    if c = opener then (splitGroup? opener closer (depth + 1) rest).map (consFirst c)
    else if c = closer then
      match depth with
      | 0 => some ([c], rest)
      | depth + 1 => (splitGroup? opener closer depth rest).map (consFirst c)
    else (splitGroup? opener closer depth rest).map (consFirst c)

theorem map_consFirst_eq_some {c : Char} {result : Option (Text × Text)} {s rest : Text} :
    result.map (consFirst c) = some (s, rest) ↔ ∃ s', result = some (s', rest) ∧ s = c :: s' := by
  cases result with
  | none => simp
  | some pair =>
    obtain ⟨t, rest'⟩ := pair
    simp only [Option.map_some, Option.some.injEq, consFirst, Prod.mk.injEq]
    constructor
    · rintro ⟨rfl, rfl⟩
      exact ⟨t, ⟨rfl, rfl⟩, rfl⟩
    · rintro ⟨_, ⟨rfl, rfl⟩, rfl⟩
      exact ⟨rfl, rfl⟩

theorem eq_append_of_splitGroup? {opener closer : Char} {depth : Nat} {text s rest : Text}
    (h : splitGroup? opener closer depth text = some (s, rest)) :
    ∃ inside, s = inside ++ [closer] ∧ text = s ++ rest := by
  induction text generalizing depth s with
  | nil => simp [splitGroup?] at h
  | cons c text ih =>
    have step : ∀ {d}, (splitGroup? opener closer d text).map (consFirst c) = some (s, rest) →
        ∃ inside, s = inside ++ [closer] ∧ c :: text = s ++ rest := fun hd => by
      obtain ⟨s', hs', rfl⟩ := map_consFirst_eq_some.1 hd
      obtain ⟨inside, rfl, rfl⟩ := ih hs'
      exact ⟨c :: inside, rfl, rfl⟩
    simp only [splitGroup?] at h
    split at h
    · exact step h
    · split at h
      next hc =>
        split at h
        · obtain ⟨rfl, rfl⟩ : [c] = s ∧ text = rest := by simpa using h
          exact ⟨[], by simp [hc], rfl⟩
        · exact step h
      next => exact step h

theorem splitGroup?_length {opener closer : Char} {depth : Nat} {text s rest : Text}
    (h : splitGroup? opener closer depth text = some (s, rest)) : rest.length < text.length := by
  obtain ⟨inside, rfl, rfl⟩ := eq_append_of_splitGroup? h
  simp
  omega

def splitQuote (quote : Char) (text : Text) : Text × Text :=
  let inside := text.takeWhile (· != quote)
  match text.dropWhile (· != quote) with
  | [] => (inside, [])
  | c :: rest => (inside ++ [c], rest)

theorem splitQuote_append (quote : Char) (text : Text) :
    (splitQuote quote text).1 ++ (splitQuote quote text).2 = text := by
  have h := List.takeWhile_append_dropWhile (p := (· != quote)) (l := text)
  unfold splitQuote
  split
  next hd => simpa [hd] using h
  next hd => simpa [hd] using h

theorem splitQuote_length (quote : Char) (text : Text) :
    (splitQuote quote text).2.length ≤ text.length := by
  have h := congrArg List.length (splitQuote_append quote text)
  rw [List.length_append] at h
  omega

end Stencil
