import Stencil.Character.Ranges

/-!
# Blanks

A blank is a character with the Unicode property White_Space. Trimming takes the
blanks off the ends of a text and leaves those inside.
-/

set_option autoImplicit false

namespace Stencil

def Ranges.blank : Ranges where
  list :=
    [(0x9, 0xD), (0x20, 0x20), (0x85, 0x85), (0xA0, 0xA0), (0x1680, 0x1680), (0x2000, 0x200A),
      (0x2028, 0x2029), (0x202F, 0x202F), (0x205F, 0x205F), (0x3000, 0x3000)]

def isBlank (c : Char) : Bool := Ranges.blank.contains c

def leadingBlanks (t : Text) : Text := t.takeWhile isBlank

def trimStart (t : Text) : Text := t.dropWhile isBlank

def trimEnd (t : Text) : Text := (trimStart t.reverse).reverse

def trim (t : Text) : Text := trimEnd (trimStart t)

theorem leadingBlanks_append_trimStart (t : Text) : leadingBlanks t ++ trimStart t = t :=
  List.takeWhile_append_dropWhile

end Stencil
