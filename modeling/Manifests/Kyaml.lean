import Manifests.Library.Space
import Manifests.Library.YamlLines

/-! What the tests rely on of kyaml: the nodes of a YAML document as it is written, and the functions that
read them. -/
namespace Manifests.Kyaml
open Library

inductive Style where
  | plain
  | singleQuoted
  | doubleQuoted
  | literal
  | folded
  deriving Repr, DecidableEq

/-- What a scalar of the style begins with. -/
def Style.mark : Style → Option Char
  | .plain => none
  | .singleQuoted => some Yaml.apostrophe
  | .doubleQuoted => some '"'
  | .literal => some '|'
  | .folded => some '>'

/-- A scalar that is not null, with the text that it stands for and with what is written around it. A
plain one can be written as it is. -/
structure Scalar where
  style : Style
  value : String
  comments : List String
  anchor : Option String
  tag : Option String
  plainValid : style = .plain → Yaml.plainValid value.toList = true

/-- Nothing is written but the value. -/
structure Scalar.Bare (s : Scalar) : Prop where
  plain : s.style = .plain
  comments : s.comments = []
  anchor : s.anchor = none
  tag : s.tag = none

/-- One of these is in what is written of a scalar that is not bare. -/
def marks : List Char := ['"', Yaml.apostrophe, '|', '>', '#', '&', '!']

/-- What a node is. -/
inductive Shape (ν : Type) where
  | null
  | scalar (s : Scalar)
  | sequence (items : List ν)
  | mapping (fields : List (String × ν))
  | aliasOf (target : ν)

namespace Shape
variable {ν : Type}

def field (key : String) : Shape ν → Option ν
  | .mapping fields => fields.lookup key
  | _ => none

def items : Shape ν → List ν
  | .sequence items => items
  | _ => []

def isEmpty : Shape ν → Bool
  | .null => true
  | .sequence items => items.isEmpty
  | .mapping fields => fields.isEmpty
  | _ => false

end Shape

/-- What `GetMeta` reads of a resource. -/
structure ResourceMeta where
  apiVersion : String
  kind : String
  name : String
  deriving Repr, DecidableEq

section
variable {ν : Type} (shape : ν → Shape ν)

/-- What an alias stands for. It is no alias itself. -/
def resolve (n : ν) : ν :=
  match shape n with
  | .aliasOf target => target
  | _ => n

variable (see : ν → ν)

/-- The field of a node, as it is seen: through aliases or not. -/
def fieldAt (n : ν) (key : String) : Option ν := (shape (see n)).field key

def itemsAt (n : ν) (key : String) : List ν :=
  match fieldAt shape see n key with
  | none => []
  | some value => (shape (see value)).items

/-- The field is missing, null, or without anything in it. -/
def emptyAt (n : ν) (key : String) : Bool :=
  match fieldAt shape see n key with
  | none => true
  | some value => (shape (see value)).isEmpty

end
end Manifests.Kyaml

namespace Manifests
open Kyaml Library
open Text (isWhiteSpace trimSpace)

/-- The functions of kyaml that the tests call, on nodes as they are written. None of them but `GetMeta`
looks through an alias. Whether a null is taken for a missing field or for an empty sequence is left
open. `String` writes a scalar in its own style: a bare one without anything but white space around it, so
that it is a given word exactly when its value is, and another one with some mark. -/
structure Kyaml (ν : Type) where
  shape : ν → Shape ν
  getMeta : ν → Option ResourceMeta
  field : ν → String → Option ν
  elements : ν → Option (List ν)
  isFieldEmpty : Option ν → Bool
  lookup : ν → String → Option (Option ν)
  string : ν → Option String
  getMeta_mapping : ∀ {n m}, getMeta n = some m → ∃ fields, shape n = .mapping fields
  getMeta_kind : ∀ {n m kind s}, getMeta n = some m → fieldAt shape id n "kind" = some kind →
    shape (resolve shape kind) = .scalar s → m.kind = s.value
  field_eq : ∀ n key, field n key = fieldAt shape id n key
  elements_sequence : ∀ {n items}, shape n = .sequence items → elements n = some items
  elements_null : ∀ {n}, shape n = .null → elements n = none ∨ elements n = some []
  elements_other : ∀ {n}, shape n ≠ .null → (∀ items, shape n ≠ .sequence items) → elements n = none
  isFieldEmpty_none : isFieldEmpty none = true
  isFieldEmpty_some : ∀ n, isFieldEmpty (some n) = (shape n).isEmpty
  lookup_missing : ∀ {n fields key}, shape n = .mapping fields → fields.lookup key = none →
    lookup n key = some none
  lookup_null : ∀ {n fields key v}, shape n = .mapping fields → fields.lookup key = some v →
    shape v = .null → lookup n key = some none ∨ lookup n key = some (some v)
  lookup_some : ∀ {n fields key v}, shape n = .mapping fields → fields.lookup key = some v →
    shape v ≠ .null → lookup n key = some (some v)
  string_bare : ∀ {n s}, shape n = .scalar s → s.Bare → ∃ t, string n = some t ∧
    ∀ word, word ≠ [] → (∀ c ∈ word, isWhiteSpace c = false) →
      (trimSpace t.toList = word ↔ trimSpace s.value.toList = word)
  string_marked : ∀ {n s t}, shape n = .scalar s → ¬ s.Bare → string n = some t →
    ∃ c ∈ marks, c ∈ trimSpace t.toList
  string_other : ∀ {n t}, (∀ s, shape n ≠ .scalar s) → string n = some t →
    trimSpace t.toList ≠ "pods".toList ∧ trimSpace t.toList ≠ "*".toList

namespace Kyaml
variable {ν : Type} {kyaml : Kyaml ν} {n : ν} {key : String}

/-- What a loop over the elements of a node goes over is the same, whether a null is an error or not. -/
theorem getD_elements : (kyaml.elements n).getD [] = (kyaml.shape n).items := by
  cases hshape : kyaml.shape n with
  | sequence items =>
    rw [kyaml.elements_sequence hshape]
    rfl
  | null =>
    rcases kyaml.elements_null hshape with h | h
    · rw [h]
      rfl
    · rw [h]
      rfl
  | scalar | mapping | aliasOf =>
    rw [kyaml.elements_other (by simp [hshape]) (by simp [hshape])]
    rfl

theorem isFieldEmpty_field : kyaml.isFieldEmpty (kyaml.field n key) = emptyAt kyaml.shape id n key := by
  rw [kyaml.field_eq, emptyAt]
  cases fieldAt kyaml.shape id n key with
  | none => exact kyaml.isFieldEmpty_none
  | some value => exact kyaml.isFieldEmpty_some value

end Kyaml
end Manifests
