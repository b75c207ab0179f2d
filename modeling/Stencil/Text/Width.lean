import Stencil.Character.Extending
import Stencil.Character.Ignorable
import Stencil.Character.Wide

/-!
# Terminal width

A character fills a number of cells of a terminal. One that is drawn into its
neighbours fills none, an ideograph or another wide character two, most others
one. A control character counts as one. These widths are assumed of the library that
draws the reports.
-/

set_option autoImplicit false

namespace Stencil

def Ranges.jamo : Ranges where
  list := [(0x1160, 0x11FF), (0xD7B0, 0xD7C6), (0xD7CB, 0xD7FB)]

def Ranges.attached : Ranges where
  list :=
    [(0x605, 0x605), (0x70F, 0x70F), (0x890, 0x891), (0x8E2, 0x8E2), (0xD4E, 0xD4E),
      (0xA8FA, 0xA8FA), (0x111C2, 0x111C3), (0x113D1, 0x113D1), (0x1193F, 0x1193F),
      (0x11941, 0x11941), (0x11A84, 0x11A89), (0x11D46, 0x11D46), (0x11F02, 0x11F02)]

def isAttached (c : Char) : Bool :=
  Ranges.ignorable.contains c || Ranges.extending.contains c || Ranges.jamo.contains c
    || Ranges.attached.contains c

def cellWidth (c : Char) : Nat :=
  -- The first four are drawn by themselves, although some have the properties of marks.
  if c = '\u2d7f' then 1
  else if c = '\u115f' || c = '\u17a4' then 2
  else if c = '\u17d8' then 3
  else if isAttached c then 0
  else if Ranges.wide.contains c then 2
  else 1

end Stencil
