import Stencil.Bracket

/-!
# Lexemes

A text is read from the left as a list of lexemes: a bracket group, a quoted run
or a single character. Which characters open a group is a parameter, since a
template knows braces only and an expression all three kinds of brackets. An
opener whose group never ends takes the rest of the text with it. Reading loses
nothing: the lexemes of a text spell the text.
-/

set_option autoImplicit false

namespace Stencil

inductive Lexeme where
  | group (opener : Char) (text : Text)
  | quoted (text : Text)
  | single (c : Char)
  | unclosed (opener : Char) (text : Text)
  deriving DecidableEq, Repr

namespace Lexeme

def text : Lexeme → Text
  | group _ t => t
  | quoted t => t
  | single c => [c]
  | unclosed _ t => t

def size (lexeme : Lexeme) : Nat := byteSize lexeme.text

def spell (lexemes : List Lexeme) : Text := lexemes.flatMap text

@[simp] theorem spell_nil : spell [] = [] := rfl

@[simp] theorem spell_cons (lexeme : Lexeme) (lexemes : List Lexeme) :
    spell (lexeme :: lexemes) = lexeme.text ++ spell lexemes := rfl

@[simp] theorem spell_append (s t : List Lexeme) : spell (s ++ t) = spell s ++ spell t :=
  List.flatMap_append

def read (brackets : Char → Option Char) : Text → List Lexeme
  | [] => []
  | c :: rest =>
    match brackets c with
    | some closer =>
      match _h : splitGroup? c closer 0 rest with
      | some (s, after) => group c (c :: s) :: read brackets after
      | none => [unclosed c (c :: rest)]
    | none =>
      if isQuote c then
        quoted (c :: (splitQuote c rest).1) :: read brackets (splitQuote c rest).2
      else single c :: read brackets rest
termination_by t => t.length
decreasing_by
  · have := splitGroup?_length _h
    simp
    omega
  · have := splitQuote_length c rest
    simp
    omega
  · simp

theorem spell_read (brackets : Char → Option Char) (t : Text) : spell (read brackets t) = t := by
  fun_induction read brackets t with
  | case1 => rfl
  | case2 c rest closer _ s after h ih =>
    obtain ⟨_, _, rfl⟩ := eq_append_of_splitGroup? h
    simp [text, ih]
  | case3 => simp [text]
  | case4 c rest _ _ ih => simp [text, ih, splitQuote_append]
  | case5 c rest _ _ ih => simp [text, ih]

end Lexeme

end Stencil
