import Stencil.Pattern
import Stencil.Segment

/-!
# Items

An item is one entry of an expression, written `key: value if condition`, where
key and condition may be left out. A question mark at the end of the value asks
that the value be non-empty; it is the condition `?` unless one is given.
The separators count only outside bracket groups and quoted runs.
-/

set_option autoImplicit false

namespace Stencil

structure Item where
  value : Text
  key : Option Text
  condition : Option Text
  span : Span
  deriving DecidableEq, Repr

def existence : Text := ['?']

def normalizeCondition (value condition : Text) : Text :=
  if condition = existence then "normalize-space(".toList ++ value ++ [')'] else condition

namespace Item

def isKeyed (item : Item) : Bool := item.key.isSome

def isExtended (item : Item) : Bool := item.key.isSome || item.condition.isSome

def normalized (item : Item) : Option Text := item.condition.map (normalizeCondition item.value)

def render (item : Item) : Text :=
  let key := match item.key with
    | some key => key ++ [':', ' ']
    | none => []
  let condition := match item.condition with
    | some condition =>
      if condition = existence then existence else " if ".toList ++ condition
    | none => []
  key ++ item.value ++ condition

structure Separators where
  colon : Option Nat
  marker : Option Span
  deriving DecidableEq, Repr

def endsKey : Text → Bool
  | ':' :: c :: _ => isBlank c
  | _ => false

/-- The separators among `lexemes`, which spell `text` and stand at `position`.
The first colon that ends a key counts, and none once a key is known. The first
marker ends the search. -/
def separators (keyed : Bool) (position : Nat) (text : Text) : List Lexeme → Outcome Separators
  | [] => .ok ⟨none, none⟩
  | .unclosed opener _ :: _ => refuse (.unmatchedPair opener) (.ofChar opener position)
  | lexeme :: rest =>
    let text' := text.drop lexeme.text.length
    if !keyed && endsKey text then do
      let others ← separators true (position + lexeme.size) text' rest
      return { others with colon := some position }
    else
      match Pattern.conditionMarker text with
      | some n => .ok ⟨none, some ⟨position, byteSize (text.take n)⟩⟩
      | none => separators keyed (position + lexeme.size) text' rest

def stripQuestion? (value : Text) : Option Text :=
  if value.getLast? = some '?' then some value.dropLast else none

def readKey (place : Place) : Option Nat → Except Fault (Option Text × Place)
  | none => .ok (none, place)
  | some colon => do
    let (key, place) ← place.readTo colon
    let (_, place) ← place.readTo (colon + 1)
    return (some (trim key), place)

def readCondition (place : Place) (stop : Nat) : Option Span → Except Fault (Option Text)
  | none => .ok none
  | some marker => do
    let (_, place) ← place.readTo marker.stop
    let (condition, _) ← place.readTo stop
    let condition := trim condition
    return if condition.isEmpty then none else some condition

def read (segment : Segment) : Outcome Item := do
  let span := segment.span
  let text := segment.text
  let ⟨colon, marker⟩ ← separators false span.start text (Lexeme.read closer? text)
  let (key, place) ← check (readKey ⟨span.start, text⟩ colon)
  let (value, place) ← check (place.readTo ((marker.map Span.start).getD span.stop))
  let condition ← check (readCondition place span.stop marker)
  let value := trim value
  match stripQuestion? value with
  | some value => return ⟨value, key, some (condition.getD existence), span⟩
  | none => return ⟨value, key, condition, span⟩

end Item

end Stencil
