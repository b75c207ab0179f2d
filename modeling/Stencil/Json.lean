import Stencil.Text.Basic

/-!
# Documents in JSON

A document is a string, an array or an object whose fields keep their order.
Both layouts write the same tokens; the compact one puts no blanks between them,
the pretty one starts each element on a line of its own, indented by two blanks
for each bracket around it.

The program makes the document and leaves the writing to a library (serde_json 1). The
escapes and the two layouts are the documented ones of that library, assumed here.
-/

set_option autoImplicit false

namespace Stencil

inductive Json where
  | string (value : Text)
  | array (elements : List Json)
  | object (fields : List (Text × Json))

namespace Json

inductive Layout where
  | compact
  | pretty
  deriving DecidableEq, Repr

def Layout.lineBreak : Layout → Nat → Text
  | compact, _ => []
  | pretty, depth => '\n' :: List.replicate (2 * depth) ' '

def Layout.colon : Layout → Text
  | compact => [':']
  | pretty => [':', ' ']

def Layout.enclose (layout : Layout) (depth : Nat) (opener closer : Char) : List Text → Text
  | [] => [opener, closer]
  | elements =>
    let separator := ',' :: layout.lineBreak (depth + 1)
    opener :: layout.lineBreak (depth + 1) ++ separator.intercalate elements
      ++ layout.lineBreak depth ++ [closer]

def escapeChar (c : Char) : Text :=
  if c = '"' then ['\\', '"']
  else if c = '\\' then ['\\', '\\']
  else if c = '\x08' then ['\\', 'b']
  else if c = '\x0c' then ['\\', 'f']
  else if c = '\n' then ['\\', 'n']
  else if c = '\r' then ['\\', 'r']
  else if c = '\t' then ['\\', 't']
  else if c.toNat < 0x20 then
    ['\\', 'u', '0', '0', Nat.digitChar (c.toNat / 16), Nat.digitChar (c.toNat % 16)]
  else [c]

def writeString (t : Text) : Text := '"' :: t.flatMap escapeChar ++ ['"']

mutual

def write (layout : Layout) (depth : Nat) : Json → Text
  | string value => writeString value
  | array elements => layout.enclose depth '[' ']' (writeElements layout (depth + 1) elements)
  | object fields => layout.enclose depth '{' '}' (writeFields layout (depth + 1) fields)

def writeElements (layout : Layout) (depth : Nat) : List Json → List Text
  | [] => []
  | element :: rest => write layout depth element :: writeElements layout depth rest

def writeFields (layout : Layout) (depth : Nat) : List (Text × Json) → List Text
  | [] => []
  | (name, value) :: rest =>
    (writeString name ++ layout.colon ++ write layout depth value) :: writeFields layout depth rest

end

def render (layout : Layout) (document : Json) : Text := document.write layout 0

end Json

end Stencil
