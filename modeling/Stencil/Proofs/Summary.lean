import Stencil.Proofs.Json.Token

/-!
# What the modes of the command agree on

The command dumps tokens, writes their document in either layout, or checks them. All modes
read the input alike, so they end with one status and one report. Where they succeed, the
summary of the check can be taken from the document instead: an array stands for an
expression, and the names of the fields in it tell a keyed set from a plain list.
-/

set_option autoImplicit false

namespace Stencil

namespace Json

def hasField (name : String) : Json → Bool
  | object fields => (fields.lookup name.toList).isSome
  | _ => false

def elements? : Json → Option (List Json)
  | array elements => some elements
  | _ => none

def isKeyedSet (elements : List Json) : Bool :=
  !elements.isEmpty && elements.all (hasField "key")

def isExtended (elements : List Json) : Bool :=
  elements.any fun element => element.hasField "key" || element.hasField "condition"

end Json

def Summary.ofArrays (arrays : List (List Json)) : Summary where
  expressions := arrays.length
  keyedSets := arrays.countP Json.isKeyedSet
  extended := arrays.any Json.isExtended

def Summary.ofDocument (single : Bool) (document : Json) : Summary :=
  if single then ofArrays document.elements?.toList
  else ofArrays ((document.elements?.getD []).filterMap Json.elements?)

theorem Item.Described.hasField_key {item : Item} {fields : List (Text × Json)}
    (h : item.Described fields) : (Json.object fields).hasField "key" = item.isKeyed := by
  rw [Json.hasField, h.key, Option.isSome_map, isKeyed]

theorem Item.Described.hasField_condition {item : Item} {fields : List (Text × Json)}
    (h : item.Described fields) :
    (Json.object fields).hasField "condition" = item.condition.isSome := by
  rw [Json.hasField, h.condition, Option.isSome_map]

theorem isKeyedSet_of_described {items : List Item} {objects : List (List (Text × Json))}
    (h : List.Forall₂ Item.Described items objects) :
    Json.isKeyedSet (objects.map .object) = isKeyedSet items := by
  have hall : (objects.map Json.object).all (Json.hasField "key") = items.all Item.isKeyed := by
    induction h with
    | nil => rfl
    | cons hitem _ ih => rw [List.map_cons, List.all_cons, List.all_cons, hitem.hasField_key, ih]
  have hempty : objects.isEmpty = items.isEmpty := by
    cases h <;> rfl
  rw [Json.isKeyedSet, isKeyedSet, List.isEmpty_map, hempty, hall]

theorem isExtended_of_described {items : List Item} {objects : List (List (Text × Json))}
    (h : List.Forall₂ Item.Described items objects) :
    Json.isExtended (objects.map .object) = items.any Item.isExtended := by
  induction h with
  | nil => rfl
  | cons hitem _ ih =>
    rw [Json.isExtended] at ih ⊢
    rw [List.map_cons, List.any_cons, List.any_cons, ih, hitem.hasField_key,
      hitem.hasField_condition, Item.isKeyed, Item.isExtended]

structure Expression.Classified (e : Expression) (elements : List Json) : Prop where
  keyedSet : Json.isKeyedSet elements = e.isKeyedSet
  extended : Json.isExtended elements = e.isExtended

theorem Expression.Described.classified {e : Expression} {document : Json}
    (h : e.Described document) :
    ∃ elements, document.elements? = some elements ∧ e.Classified elements := by
  obtain ⟨objects, rfl, hobjects⟩ := h
  exact ⟨objects.map .object, rfl, isKeyedSet_of_described hobjects,
    isExtended_of_described hobjects⟩

theorem classified_expressions {tokens : List Token} {documents : List Json}
    (h : List.Forall₂ Token.Described tokens documents) :
    List.Forall₂ Expression.Classified (expressions tokens)
      (documents.filterMap Json.elements?) := by
  induction h with
  | nil => exact .nil
  | cons htoken _ ih =>
    cases htoken with
    | text => exact ih
    | expression he =>
      obtain ⟨elements, helements, hclassified⟩ := he.classified
      rw [List.filterMap_cons_some helements]
      exact .cons hclassified ih

theorem Summary.ofArrays_eq {tokens : List Token} {arrays : List (List Json)}
    (h : List.Forall₂ Expression.Classified (Stencil.expressions tokens) arrays) :
    ofArrays arrays = ofTokens tokens := by
  rw [ofArrays, ofTokens, requiresExtended]
  generalize Stencil.expressions tokens = es at h ⊢
  induction h with
  | nil => rfl
  | cons he _ ih =>
    injection ih with hlength hkeyed hextended
    simp [List.countP_cons, he.keyedSet, he.extended, hlength, hkeyed, hextended]

namespace Command

theorem Described.summary {single : Bool} {tokens : List Token} {document : Json}
    (h : Described single tokens document) :
    Summary.ofDocument single document = Summary.ofTokens tokens := by
  cases h with
  | template h => exact Summary.ofArrays_eq (classified_expressions h)
  | expression h =>
    obtain ⟨elements, helements, hclassified⟩ := h.classified
    rw [Summary.ofDocument, if_pos rfl, helements]
    exact Summary.ofArrays_eq (.cons hclassified .nil)

inductive Mode where
  | dump
  | document (layout : Json.Layout)
  | check
  deriving DecidableEq, Repr

namespace Mode

def flags : Mode → List Flag
  | dump => []
  | document .compact => [.json]
  | document .pretty => [.json, .pretty]
  | check => [.check]

def arguments (mode : Mode) (single : Bool) : List Text :=
  (if single then [Flag.expr.name.toList] else []) ++
    mode.flags.map fun flag => flag.name.toList

def options (mode : Mode) (single : Bool) : Options :=
  ⟨(if single then [.expr] else []) ++ mode.flags, none⟩

theorem has_expr (mode : Mode) (single : Bool) : (mode.options single).has .expr = single := by
  cases mode with
  | document layout => cases layout <;> cases single <;> rfl
  | _ => cases single <;> rfl

theorem documents (layout : Json.Layout) (single : Bool) :
    ((document layout).options single).Documents single where
  json := by cases layout <;> cases single <;> rfl
  check := by cases layout <;> cases single <;> rfl
  expr := has_expr (document layout) single

end Mode

end Command

end Stencil
