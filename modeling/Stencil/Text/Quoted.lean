import Stencil.Character.Extending
import Stencil.Character.Ignorable
import Stencil.Character.Unassigned

/-!
# Quoted texts

A text in double quotes on one line: the quote, the backslash and the common
control characters are escaped by a letter, every other unprintable character by
its number. A reader sees where the text begins and ends, blanks included.
-/

set_option autoImplicit false

namespace Stencil

def Ranges.hidden : Ranges where
  -- Controls, format characters, private use, and all separators but the space.
  list :=
    [(0x0, 0x1F), (0x7F, 0xA0), (0xAD, 0xAD), (0x600, 0x605), (0x61C, 0x61C), (0x6DD, 0x6DD),
      (0x70F, 0x70F), (0x890, 0x891), (0x8E2, 0x8E2), (0x1680, 0x1680), (0x180E, 0x180E),
      (0x2000, 0x200F), (0x2028, 0x202F), (0x205F, 0x2064), (0x2066, 0x206F), (0x3000, 0x3000),
      (0xE000, 0xF8FF), (0xFEFF, 0xFEFF), (0xFFF9, 0xFFFB), (0x110BD, 0x110BD), (0x110CD, 0x110CD),
      (0x13430, 0x1343F), (0x1BCA0, 0x1BCA3), (0x1D173, 0x1D17A), (0xE0001, 0xE0001),
      (0xE0020, 0xE007F), (0xF0000, 0xFFFFD), (0x100000, 0x10FFFD)]

def isPrintable (c : Char) : Bool :=
  !(Ranges.hidden.contains c || Ranges.unassigned.contains c || Ranges.ignorable.contains c
    || Ranges.extending.contains c)

def quoteChar (c : Char) : Text :=
  if c = '"' then ['\\', '"']
  else if c = '\\' then ['\\', '\\']
  else if c = '\t' then ['\\', 't']
  else if c = '\r' then ['\\', 'r']
  else if c = '\n' then ['\\', 'n']
  else if c = '\x00' then ['\\', '0']
  else if isPrintable c then [c]
  else ['\\', 'u', '{'] ++ Nat.toDigits 16 c.toNat ++ ['}']

def quoted (t : Text) : Text := '"' :: t.flatMap quoteChar ++ ['"']

end Stencil
